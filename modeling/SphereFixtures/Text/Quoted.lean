import SphereFixtures.Text.Printable

/-!
# Quoted texts

A text between single quotes, or between double ones when it holds single
quotes only.  Characters without a visible form are written by their code
points, with two, four or eight hexadecimal digits.
-/

namespace SphereFixtures

namespace Quoted

def hex (width code : Nat) : List Char :=
  let digits := Nat.toDigits 16 code
  List.replicate (width - digits.length) '0' ++ digits

def codePoint (code : Nat) : List Char :=
  if code < 0x100 then '\\' :: 'x' :: hex 2 code
  else if code < 0x10000 then '\\' :: 'u' :: hex 4 code
  else '\\' :: 'U' :: hex 8 code

def escape (mark c : Char) : List Char :=
  if c = mark || c = '\\' then ['\\', c]
  else if c = '\n' then ['\\', 'n']
  else if c = '\r' then ['\\', 'r']
  else if c = '\t' then ['\\', 't']
  else if isPrintable c then [c]
  else codePoint c.toNat

def markFor (cs : List Char) : Char :=
  if cs.contains '\'' && !cs.contains '"' then '"' else '\''

def encode (cs : List Char) : List Char :=
  let mark := markFor cs
  mark :: cs.flatMap (escape mark) ++ [mark]

end Quoted

def quoted (text : String) : String :=
  String.ofList (Quoted.encode text.toList)

end SphereFixtures
