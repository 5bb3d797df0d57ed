/-!
# Double precision

A double as the number it stands for: a sign, a whole mantissa and a power of
two.  Exact comparisons, whole parts and decimal texts start from this view.
-/

namespace SphereFixtures

/-- The value of a double, `± mantissa * 2 ^ exponent` when it is finite. -/
inductive Binary64 where
  | nan
  | infinite (negative : Bool)
  | finite (negative : Bool) (mantissa : Nat) (exponent : Int)
deriving DecidableEq, Repr

namespace Binary64

/-- The leading one of 53 bits, which the bit pattern leaves out. -/
def leadingBit : Nat := 4503599627370496

def leastExponent : Int := -1074

def ofBits (bits : Nat) : Binary64 :=
  let negative := bits >>> 63 % 2 == 1
  let biased := bits >>> 52 % 2048
  let fraction := bits % leadingBit
  if biased = 2047 then
    if fraction = 0 then .infinite negative else .nan
  else if biased = 0 then
    .finite negative fraction leastExponent
  else
    .finite negative (leadingBit + fraction) (leastExponent + (biased - 1 : Nat))

def ofFloat (x : Float) : Binary64 :=
  ofBits x.toBits.toNat

def signed (negative : Bool) (mantissa : Nat) : Int :=
  if negative then -mantissa else mantissa

/-- `m * 2 ^ e`, rounded down to a whole number. -/
def floorScaled (m : Int) (e : Int) : Int :=
  if 0 ≤ e then m <<< e.toNat else m >>> (-e).toNat

def floor? : Binary64 -> Option Int
  | .finite negative mantissa exponent =>
      some (floorScaled (signed negative mantissa) exponent)
  | _ => none

/-- The value scaled to units of `2 ^ leastExponent`, where it is whole. -/
def units (negative : Bool) (mantissa : Nat) (exponent : Int) : Int :=
  signed negative mantissa <<< (exponent - leastExponent).toNat

def units? : Binary64 -> Option Int
  | .finite negative mantissa exponent => some (units negative mantissa exponent)
  | _ => none

/-- The double nearest to a whole number, as a whole number: it is rounded to its
53 leading bits, a half to the even neighbour.  The range is not limited. -/
def nearestWhole (q : Nat) : Nat :=
  let excess := Nat.log2 q + 1 - 53
  let kept := q >>> excess
  let unit := 1 <<< excess
  let rest := q % unit
  let up := unit < 2 * rest || (2 * rest == unit && kept % 2 == 1)
  (if up then kept + 1 else kept) <<< excess

end Binary64

end SphereFixtures
