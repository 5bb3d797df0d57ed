import SphereFixtures.Decimal.Text
import SphereFixtures.DoublePrecision
import SphereFixtures.Geometry.Vector

/-!
# Spherical caps

A cap holds the points within an angle of its center.  It is stored by its
height along the center axis, `1 - cos radius`, to which its area is
proportional.
-/

namespace SphereFixtures

open Scalar

/-- A cap that is not made, with the number that rules it out. -/
inductive CapError (α : Type) where
  | heightOutOfRange (height : α)
  | negativeRadius (radius : α)

namespace CapError

def message : CapError Float -> String
  | .heightOutOfRange height =>
      s!"Cap height must lie in [0, 2], got {Decimal.shortestText height}."
  | .negativeRadius radius =>
      s!"Cap radius must be non-negative, got {Decimal.shortestText radius}."

end CapError

structure Cap (α : Type) [Scalar α] where
  center : Vec3 α
  height : α
  height_mem : (0.0 : α) ≤ height ∧ height ≤ (2.0 : α)

namespace Cap

variable {α : Type} [Scalar α]

/-- The cap of a given height.  Its center is scaled to length one. -/
def ofHeight (center : Vec3 α) (height : α) : Except (CapError α) (Cap α) :=
  if h : (0.0 : α) ≤ height ∧ height ≤ (2.0 : α) then
    .ok { center := center.normalize, height := height, height_mem := h }
  else
    .error (.heightOutOfRange height)

/-- The cap of a given angular radius; from half a turn on it is the sphere.
The height is written with half the radius, so that a small radius keeps its
precision. -/
def ofRadius (center : Vec3 α) (radius : α) : Except (CapError α) (Cap α) :=
  if radius < 0.0 then .error (.negativeRadius radius)
  else if pi ≤ radius then ofHeight center 2.0
  else ofHeight center (2.0 * square (sin (0.5 * radius)))

def ofArea (center : Vec3 α) (area : α) : Except (CapError α) (Cap α) :=
  ofHeight center (atMost 2.0 (area / (2.0 * pi)))

def radius (cap : Cap α) : α :=
  2.0 * asin (sqrt (0.5 * cap.height))

def area (cap : Cap α) : α :=
  2.0 * pi * cap.height

/-- Whether a point lies in the cap: the square of its chord to the center is
at most that of the boundary, twice the height. -/
def contains (cap : Cap α) (point : Vec3 α) : Bool :=
  let chord := cap.center - point
  decide (chord.dot chord ≤ 2.0 * cap.height)

end Cap

end SphereFixtures
