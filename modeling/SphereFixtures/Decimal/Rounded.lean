import SphereFixtures.Decimal.Shortest

/-!
# Rounded decimals

A double rounded to a fixed number of decimal places, or of digits.  Rounding
starts from the exact value, and a half goes to the even neighbour.
-/

namespace SphereFixtures

namespace Decimal

/-- The whole number nearest to `n / d`; a half goes to the even neighbour. -/
def roundDiv (n d : Nat) : Nat :=
  let q := n / d
  let r := n % d
  if d < 2 * r || (2 * r == d && q % 2 == 1) then q + 1 else q

/-- The nearest multiple of `10 ^ k` to `b * 2 ^ q`, counted in these steps. -/
def toGrid (b : Nat) (k q : Int) : Nat :=
  roundDiv (twoSide b k q) (tenSide 1 k q)

def toPlaces (places : Nat) (mantissa : Nat) (exponent : Int) : Decimal :=
  { digits := toGrid mantissa (-places) exponent, exponent := -places }

/-- The value with `count` significant digits.  A value that rounds up to the
next power of ten keeps its number of digits. -/
def toDigits (count : Nat) (mantissa : Nat) (exponent : Int) : Decimal :=
  let k := magnitude mantissa exponent - (count - 1 : Nat)
  let digits := toGrid mantissa k exponent
  if digits = tenTo count then
    { digits := tenTo (count - 1), exponent := k + 1 }
  else
    { digits := digits, exponent := k }

end Decimal

end SphereFixtures
