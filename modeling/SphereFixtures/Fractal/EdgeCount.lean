import SphereFixtures.Binary64

/-!
# Levels for edge counts

A fractal of level `n` has `3 * 4 ^ n` edges.  The level for a wanted count is
the whole number nearest to half the binary logarithm of a third of the count.
The logarithm is the one of double precision: its argument has 53 bits, and it
rounds up to a whole number from slightly below a power of two.
-/

namespace SphereFixtures

namespace EdgeCount

/-- The natural logarithm of two, in units of `2 ^ -64`. -/
def logTwo : Nat := 0xB17217F7D1CF79AB

/-- How much less than one the exponential of `-y` is, from its series, in the
units of `y`, which are `2 ^ -117`. -/
def exponentialDrop (y : Nat) : Nat :=
  (List.range 20).foldr
    (fun n rest => y * (1 <<< 117 - rest) / ((n + 1) <<< 117)) 0

/-- How much less than one the power of two with exponent `-2 ^ (e - 53)` is, in
units of `2 ^ -53`. -/
def powerDrop (e : Nat) : Nat :=
  exponentialDrop (logTwo <<< e) >>> 64

/-- How far below `2 ^ k` a logarithm still rounds to `k`, as a multiple of
`2 ^ (k - 53)`: it is short of `k` by less than half the spacing of doubles just
below `k`.  From `2 ^ 53` on doubles no longer tell whole numbers apart; no
number has a logarithm as great as that in practice. -/
def sliver (k : Nat) : Nat :=
  powerDrop (min (Nat.log2 k) 52)

/-- Whether the rounded logarithm of a number of 53 bits is at least `k`. -/
def logReaches (q k : Nat) : Bool :=
  1 <<< (k + 53) ≤ q <<< 53 + sliver k <<< k

/-- Half the rounded logarithm of `q`, to the nearest whole number; halves go
up.  Level `n` is reached with a logarithm of `2 * n - 1`. -/
def halfLog (q : Nat) : Nat :=
  let q := Binary64.nearestWhole q
  let level := (Nat.log2 q + 1) / 2
  if logReaches q (2 * level + 1) then level + 1 else level

/-- The level whose number of edges is close to `count`, and zero for counts
that no polygon has. -/
def level (count : Int) : Nat :=
  if count < 3 then 0 else halfLog (count / 3).toNat

end EdgeCount

end SphereFixtures
