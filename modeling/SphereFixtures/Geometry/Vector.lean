import SphereFixtures.Scalar

/-!
# Vectors of the plane and of space

Products, lengths and directions.  A product of two vectors adds its terms to
zero from left to right, and a length is the square root of a product without
any scaling.
-/

namespace SphereFixtures

open Scalar

/-!
## Lists of coordinates
-/

namespace Coordinates

variable {α : Type} [Scalar α]

def dot (a b : List α) : α :=
  (List.zipWith (· * ·) a b).foldl (· + ·) 0.0

def norm (v : List α) : α :=
  sqrt (dot v v)

/-- The vector scaled to length one.  A vector of length zero is returned as
it is. -/
def normalize (v : List α) : List α :=
  let length := norm v
  if length == 0.0 then v else v.map (· / length)

end Coordinates

/-!
## Space
-/

structure Vec3 (α : Type) where
  x : α
  y : α
  z : α
deriving DecidableEq, Repr, Inhabited

namespace Vec3

def toList {α : Type} (v : Vec3 α) : List α :=
  [v.x, v.y, v.z]

def map {α β : Type} (f : α -> β) (v : Vec3 α) : Vec3 β :=
  { x := f v.x, y := f v.y, z := f v.z }

variable {α : Type} [Scalar α]

def zero : Vec3 α :=
  { x := 0.0, y := 0.0, z := 0.0 }

def sub (a b : Vec3 α) : Vec3 α :=
  { x := a.x - b.x, y := a.y - b.y, z := a.z - b.z }

instance : Sub (Vec3 α) := ⟨sub⟩

def neg (a : Vec3 α) : Vec3 α :=
  { x := -a.x, y := -a.y, z := -a.z }

instance : Neg (Vec3 α) := ⟨neg⟩

def divBy (a : Vec3 α) (s : α) : Vec3 α :=
  a.map (· / s)

def dot (a b : Vec3 α) : α :=
  0.0 + a.x * b.x + a.y * b.y + a.z * b.z

def cross (a b : Vec3 α) : Vec3 α :=
  { x := a.y * b.z - a.z * b.y
    y := a.z * b.x - a.x * b.z
    z := a.x * b.y - a.y * b.x }

def norm (a : Vec3 α) : α :=
  sqrt (dot a a)

/-- The vector scaled to length one.  A vector of length zero is returned as
it is. -/
def normalize (a : Vec3 α) : Vec3 α :=
  let length := norm a
  if length == 0.0 then a else a.divBy length

/-- The angle between two vectors, from `0` to `pi`. -/
def angleTo (a b : Vec3 α) : α :=
  atan2 (norm (cross a b)) (dot a b)

def ofLatLng (lat lng : α) : Vec3 α :=
  { x := cos lat * cos lng, y := cos lat * sin lng, z := sin lat }

theorem norm_toList (a : Vec3 α) : Coordinates.norm a.toList = a.norm := rfl

theorem toList_normalize (a : Vec3 α) :
    a.normalize.toList = Coordinates.normalize a.toList := by
  by_cases h : (a.norm == 0.0) = true
  · simp [normalize, Coordinates.normalize, norm_toList, h]
  · simp only [normalize, Coordinates.normalize, norm_toList, h]
    rfl

end Vec3

/-!
## The plane
-/

structure Vec2 (α : Type) where
  x : α
  y : α
deriving DecidableEq, Repr, Inhabited

namespace Vec2

variable {α : Type} [Scalar α]

def add (a b : Vec2 α) : Vec2 α :=
  { x := a.x + b.x, y := a.y + b.y }

instance : Add (Vec2 α) := ⟨add⟩

def sub (a b : Vec2 α) : Vec2 α :=
  { x := a.x - b.x, y := a.y - b.y }

instance : Sub (Vec2 α) := ⟨sub⟩

def scale (s : α) (a : Vec2 α) : Vec2 α :=
  { x := s * a.x, y := s * a.y }

/-- The vector turned by a right angle, counter-clockwise. -/
def turned (a : Vec2 α) : Vec2 α :=
  { x := -a.y, y := a.x }

end Vec2

end SphereFixtures
