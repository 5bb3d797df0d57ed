import SphereFixtures.Binary64
import SphereFixtures.Scalar

/-!
# Scalars at double precision

The instance at which the library runs.  The length of a plane vector is the
double nearest to the exact length, found by moving an approximate root to a
neighbour while the exact squares say that the neighbour is closer.
-/

namespace SphereFixtures

namespace Binary64

/-- The doubles just below and just above a positive double. -/
def below (x : Float) : Float :=
  Float.ofBits (x.toBits - 1)

def above (x : Float) : Float :=
  Float.ofBits (x.toBits + 1)

/-- One step from `root` towards the length whose exact square is `squared`.
The half-way point to a neighbour decides whether the neighbour is closer. -/
def closerRoot (squared : Int) (root : Float) : Float :=
  match (ofFloat (below root)).units?, (ofFloat root).units?,
      (ofFloat (above root)).units? with
  | some low, some mid, some high =>
      if (mid + high) * (mid + high) < 4 * squared then above root
      else if 4 * squared < (low + mid) * (low + mid) then below root
      else root
  | _, _, _ => root

/-- The length of `(x, y)`, rounded to nearest.  An infinite coordinate makes
it infinite whatever the other one is. -/
def hypot (x y : Float) : Float :=
  if x.abs == 1.0 / 0.0 || y.abs == 1.0 / 0.0 then 1.0 / 0.0
  else
    let longer := if x.abs < y.abs then y.abs else x.abs
    let shorter := if x.abs < y.abs then x.abs else y.abs
    if longer == 0.0 && shorter == 0.0 then longer
    else
      let ratio := shorter / longer
      let root := longer * Float.sqrt (1.0 + ratio * ratio)
      match (ofFloat x).units?, (ofFloat y).units? with
      | some a, some b =>
          let squared := a * a + b * b
          closerRoot squared (closerRoot squared root)
      | _, _ => root

end Binary64

instance natCastFloat : NatCast Float := ⟨Float.ofNat⟩

instance scalarFloat : Scalar Float where
  decidableLT := inferInstance
  decidableLE := inferInstance
  pi := 3.141592653589793
  abs := Float.abs
  sqrt := Float.sqrt
  sin := Float.sin
  cos := Float.cos
  asin := Float.asin
  log := Float.log
  atan2 := Float.atan2
  hypot := Binary64.hypot
  pow := Float.pow

end SphereFixtures
