import SphereFixtures.Binary64

/-!
# Shortest decimals

The decimal with the fewest digits that rounds to a given double and, among
those, the one nearest to it.  The reals that round to a double form an
interval around it; grids of 1, 2, 3, ... digits are tried until one of the
two neighbours of the value on the grid lies in the interval.
-/

namespace SphereFixtures

structure Decimal where
  digits : Nat
  exponent : Int
deriving DecidableEq, Repr

namespace Decimal

/-!
## Comparing powers of ten and of two

The order of `d * 10 ^ k` and `b * 2 ^ q` is that of two whole numbers, since
negative powers can be moved to the other side.
-/

def tenTo (n : Nat) : Nat :=
  Nat.pow 10 n

def tenSide (d : Nat) (k q : Int) : Nat :=
  (d * tenTo k.toNat) <<< (-q).toNat

def twoSide (b : Nat) (k q : Int) : Nat :=
  (b <<< q.toNat) * tenTo (-k).toNat

/-- The greatest `e` with `10 ^ e ≤ b * 2 ^ q`, for a positive `b`: an estimate
from the binary length, put right by comparing. -/
def magnitude (b : Nat) (q : Int) : Int :=
  let estimate := ((Nat.log2 b : Int) + q) * 30103 / 100000
  if twoSide b estimate q < tenSide 1 estimate q then
    estimate - 1
  else if tenSide 1 (estimate + 1) q ≤ twoSide b (estimate + 1) q then
    estimate + 1
  else
    estimate

/-!
## The interval of a double
-/

/-- The positive double `value * 2 ^ exponent` and the ends of the interval of
reals that round to it.  The ends belong to it when the mantissa is even. -/
structure Interval where
  low : Nat
  value : Nat
  high : Nat
  exponent : Int
  closed : Bool
deriving DecidableEq, Repr

namespace Interval

/-- The interval of `mantissa * 2 ^ exponent`.  Just above a power of two the
doubles below are twice as close, except at the least exponent. -/
def ofMantissa (mantissa : Nat) (exponent : Int) : Interval :=
  let atPower := mantissa = Binary64.leadingBit ∧
    Binary64.leastExponent < exponent
  { low := 4 * mantissa - (if atPower then 1 else 2)
    value := 4 * mantissa
    high := 4 * mantissa + 2
    exponent := exponent - 2
    closed := mantissa % 2 == 0 }

def contains (i : Interval) (d : Nat) (k : Int) : Bool :=
  let point := tenSide d k i.exponent
  let low := twoSide i.low k i.exponent
  let high := twoSide i.high k i.exponent
  if i.closed then low ≤ point && point ≤ high
  else low < point && point < high

def gridBelow (i : Interval) (k : Int) : Nat :=
  twoSide i.value k i.exponent / tenSide 1 k i.exponent

/-- Whether the upper neighbour on the grid is nearer to the value; at equal
distance the even one is. -/
def upperIsNearer (i : Interval) (k : Int) : Bool :=
  let d := i.gridBelow k
  let value := 2 * twoSide i.value k i.exponent
  let middle := tenSide (2 * d + 1) k i.exponent
  middle < value || (middle == value && d % 2 == 1)

/-- The better of the two neighbours on the grid of multiples of `10 ^ k`, if
either rounds to the double. -/
def onGrid? (i : Interval) (k : Int) : Option Nat :=
  let d := i.gridBelow k
  match i.contains d k, i.contains (d + 1) k with
  | true, true => some (if i.upperIsNearer k then d + 1 else d)
  | true, false => some d
  | false, true => some (d + 1)
  | false, false => none

/-- Try grids of one more digit, `left` times at most, before the seventeen
digits that always suffice. -/
def search (i : Interval) (left : Nat) (k : Int) : Decimal :=
  match left with
  | 0 => { digits := (i.onGrid? k).getD (i.gridBelow k), exponent := k }
  | left + 1 =>
      match i.onGrid? k with
      | some d => { digits := d, exponent := k }
      | none => search i left (k - 1)

end Interval

def enoughDigits : Nat := 17

/-- The shortest decimal that rounds to `mantissa * 2 ^ exponent`, nearest to
it among the shortest ones. -/
def shortest (mantissa : Nat) (exponent : Int) : Decimal :=
  if mantissa = 0 then
    { digits := 0, exponent := 0 }
  else
    (Interval.ofMantissa mantissa exponent).search (enoughDigits - 1)
      (magnitude mantissa exponent)

end Decimal

end SphereFixtures
