import SphereFixtures.Text.Digit

/-!
# Reading numbers

Whole numbers and doubles as a user may write them: blanks around the number,
one sign, the digits of any script, and single underscores between digits.
-/

namespace SphereFixtures

namespace Numeral

/-!
## Signs, digits and separators
-/

def isDigit (c : Char) : Bool :=
  c.isDigit

/-- The characters without underscores, if every one stood between digits. -/
def joinGroups? (before : Bool) : List Char -> Option (List Char)
  | [] => some []
  | c :: rest =>
      if c = '_' then
        if before && (rest.head?.any isDigit) then joinGroups? false rest
        else none
      else (joinGroups? (isDigit c) rest).map (c :: ·)

/-- The number behind the blanks, with plain digits and no separators. -/
def plain? (text : String) : Option (List Char) :=
  joinGroups? false (trimBlanks (text.toList.map Digit.toAscii))

def splitSign : List Char -> Bool × List Char
  | '-' :: rest => (true, rest)
  | '+' :: rest => (false, rest)
  | cs => (false, cs)

def ofDigits (ds : List Char) : Nat :=
  ds.foldl (fun n d => 10 * n + (d.toNat - '0'.toNat)) 0

/-!
## Whole numbers
-/

def maxDigits : Nat := 4300

def int? (text : String) : Option Int := do
  let (negative, digits) := splitSign (← plain? text)
  if digits ≠ [] ∧ digits.all isDigit ∧ digits.length ≤ maxDigits then
    let size : Int := ofDigits digits
    return if negative then -size else size
  else
    none

/-!
## Doubles
-/

/-- The words for numbers that are not finite, in lower case. -/
def special? (cs : List Char) : Option Float :=
  let word := String.ofList (cs.map Char.toLower)
  if word = "inf" ∨ word = "infinity" then some (1.0 / 0.0)
  else if word = "nan" then some (0.0 / 0.0)
  else none

def exponent? : List Char -> Option Int
  | [] => some 0
  | e :: rest =>
      let (negative, digits) := splitSign rest
      if (e = 'e' ∨ e = 'E') ∧ digits ≠ [] ∧ digits.all isDigit then
        let size : Int := ofDigits digits
        some (if negative then -size else size)
      else
        none

/-- Powers of ten beyond this size are infinite or zero. -/
def farExponent : Int := 400

def nearest (digits : List Char) (exponent : Int) : Float :=
  let digits := digits.dropWhile (· = '0')
  let magnitude := (digits.length : Int) + exponent
  if digits = [] ∨ magnitude < -farExponent then 0.0
  else if farExponent < magnitude then 1.0 / 0.0
  else if exponent < 0 then
    Float.ofScientific (ofDigits digits) true exponent.natAbs
  else
    Float.ofScientific (ofDigits digits) false exponent.natAbs

/-- A number with a point or an exponent or neither. -/
def finite? (cs : List Char) : Option Float := do
  let whole := cs.takeWhile isDigit
  let rest := cs.dropWhile isDigit
  let (fraction, rest) :=
    match rest with
    | '.' :: rest => (rest.takeWhile isDigit, rest.dropWhile isDigit)
    | rest => ([], rest)
  if whole = [] ∧ fraction = [] then
    none
  else
    return nearest (whole ++ fraction) ((← exponent? rest) - fraction.length)

def float? (text : String) : Option Float := do
  let (negative, cs) := splitSign (← plain? text)
  let size ← (special? cs).orElse fun _ => finite? cs
  return if negative then -size else size

end Numeral

end SphereFixtures
