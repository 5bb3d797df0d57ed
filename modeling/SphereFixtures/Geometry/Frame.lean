import SphereFixtures.Geometry.Vector

/-!
# Coordinate frames

A frame is given by its three axes.  Reading a point in a frame is the inverse
of placing it when the axes are orthonormal.
-/

namespace SphereFixtures

open Scalar

structure Frame (α : Type) where
  x : Vec3 α
  y : Vec3 α
  z : Vec3 α
deriving DecidableEq, Repr

inductive Axis where
  | x
  | y
  | z
deriving DecidableEq, Repr

namespace Axis

/-- The axis before this one in the cycle x, y, z. -/
def previous : Axis -> Axis
  | .x => .z
  | .y => .x
  | .z => .y

end Axis

namespace Vec3

variable {α : Type}

def set (v : Vec3 α) (axis : Axis) (value : α) : Vec3 α :=
  match axis with
  | .x => { v with x := value }
  | .y => { v with y := value }
  | .z => { v with z := value }

variable [Scalar α]

/-- Whether `candidate` replaces the largest value so far.  Only a strictly
larger one does, or one that does not compare; after that nothing does. -/
def outranks (candidate largest : α) : Bool :=
  !decide (candidate ≤ largest) && largest == largest

/-- The axis with the largest coordinate; the first one wins a tie. -/
def largestAxis (v : Vec3 α) : Axis :=
  if outranks v.y v.x then
    if outranks v.z v.y then .z else .y
  else
    if outranks v.z v.x then .z else .x

/-- A direction that is far from all three axes. -/
def skewDirection : Vec3 α :=
  { x := 0.012, y := 0.0053, z := 0.00457 }

/-- A unit vector orthogonal to `a`.  It depends on the direction of `a` only
through its largest coordinate and changes sign with `a`. -/
def orthogonal (a : Vec3 α) : Vec3 α :=
  let axis := (a.map Scalar.abs).largestAxis.previous
  (a.cross (skewDirection.set axis 1.0)).normalize

end Vec3

namespace Frame

variable {α : Type} [Scalar α]

def ofAxis (z : Vec3 α) : Frame α :=
  let y := z.orthogonal
  { x := y.cross z, y := y, z := z }

/-- The global coordinates of a point given in the frame. -/
def toGlobal (f : Frame α) (p : Vec3 α) : Vec3 α :=
  { x := Vec3.dot { x := f.x.x, y := f.y.x, z := f.z.x } p
    y := Vec3.dot { x := f.x.y, y := f.y.y, z := f.z.y } p
    z := Vec3.dot { x := f.x.z, y := f.y.z, z := f.z.z } p }

def toLocal (f : Frame α) (p : Vec3 α) : Vec3 α :=
  { x := f.x.dot p, y := f.y.dot p, z := f.z.dot p }

end Frame

end SphereFixtures
