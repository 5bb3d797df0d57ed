import SphereFixtures.Decimal.Rounded

/-!
# Decimal texts of doubles

Three ways to write a double: with the fewest digits that read back, with a
fixed number of places, and with a fixed number of digits and an exponent.
Each works on the exact value, so no text depends on binary rounding.
-/

namespace SphereFixtures

namespace Decimal

def nanText : String := "nan"

def infinityText (negative : Bool) : String :=
  if negative then "-inf" else "inf"

def signText (negative : Bool) : String :=
  if negative then "-" else ""

def padLeft (width : Nat) (t : List Char) : List Char :=
  List.replicate (width - t.length) '0' ++ t

def digitChars (n : Nat) : List Char :=
  Nat.toDigits 10 n

/-- An exponent mark: the sign is always written, and at least two digits. -/
def exponentText (e : Int) : String :=
  "e" ++ (if e < 0 then "-" else "+")
    ++ String.ofList (padLeft 2 (digitChars e.natAbs))

/-!
## Fixed notation
-/

/-- `digits / 10 ^ places`, with a point in front of the last `places`. -/
def pointText (places : Nat) (digits : Nat) : String :=
  let padded := padLeft (places + 1) (digitChars digits)
  let whole := padded.take (padded.length - places)
  let rest := padded.drop (padded.length - places)
  if places = 0 then String.ofList whole
  else String.ofList (whole ++ '.' :: rest)

def fixedText (places : Nat) (x : Float) : String :=
  match Binary64.ofFloat x with
  | .nan => nanText
  | .infinite negative => infinityText negative
  | .finite negative mantissa exponent =>
      signText negative
        ++ pointText places (toPlaces places mantissa exponent).digits

/-!
## Exponent notation
-/

/-- The digits with a point after the first one, which is left out when it is
the only one. -/
def leadingText (digits : List Char) : String :=
  match digits with
  | [] => ""
  | [d] => String.ofList [d]
  | d :: rest => String.ofList (d :: '.' :: rest)

def exponentNotation (digits : List Char) (exponent : Int) : String :=
  leadingText digits ++ exponentText (exponent + (digits.length - 1 : Nat))

def scientificText (count : Nat) (x : Float) : String :=
  match Binary64.ofFloat x with
  | .nan => nanText
  | .infinite negative => infinityText negative
  | .finite negative mantissa exponent =>
      let digits :=
        if mantissa = 0 then List.replicate count '0'
        else digitChars (toDigits count mantissa exponent).digits
      let scale :=
        if mantissa = 0 then 1 - (count : Int)
        else (toDigits count mantissa exponent).exponent
      signText negative ++ exponentNotation digits scale

/-!
## Shortest notation
-/

/-- Trailing zeros of the digits, moved into the exponent.  The bound on the
number of steps is the number of digits. -/
def trimmed (d : Decimal) : Decimal :=
  go (digitChars d.digits).length d
where
  go : Nat -> Decimal -> Decimal
    | 0, d => d
    | steps + 1, d =>
        if d.digits ≠ 0 ∧ d.digits % 10 = 0 then
          go steps { digits := d.digits / 10, exponent := d.exponent + 1 }
        else d

/-- The decimal exponents that are written without an exponent mark. -/
def writtenPositionally (exponent : Int) : Bool :=
  -4 ≤ exponent && exponent < 16

/-- Digits in positional notation.  A whole number keeps one zero behind the
point. -/
def positionalNotation (digits : List Char) (exponent : Int) : String :=
  if 0 ≤ exponent then
    String.ofList (digits ++ List.replicate exponent.toNat '0') ++ ".0"
  else
    let places := (-exponent).toNat
    let padded := padLeft (places + 1) digits
    String.ofList (padded.take (padded.length - places) ++
      '.' :: padded.drop (padded.length - places))

def shortestNotation (d : Decimal) : String :=
  let d := d.trimmed
  let digits := digitChars d.digits
  if writtenPositionally (d.exponent + (digits.length - 1 : Nat)) then
    positionalNotation digits d.exponent
  else
    exponentNotation digits d.exponent

/-- The text with the fewest digits that reads back as the same double. -/
def shortestText (x : Float) : String :=
  match Binary64.ofFloat x with
  | .nan => nanText
  | .infinite negative => infinityText negative
  | .finite negative mantissa exponent =>
      signText negative ++ shortestNotation (shortest mantissa exponent)

end Decimal

end SphereFixtures
