import SphereFixtures.Geometry.Frame
import SphereFixtures.Geometry.Loop
import SphereFixtures.Geometry.VertexCount

/-!
# Regular polygons and concentric loops

Vertices are spaced evenly around the third axis of the frame at a center,
counter-clockwise, and start in the direction of its first axis.
-/

namespace SphereFixtures

open Scalar

inductive PolygonError where
  | tooFewVertices (found : Int)
  | noLoops (found : Int)
  | negativeCount (found : Int)
  | tooManyLoops
  | capacity (error : CapacityError)
  | loop (error : LoopError)
deriving DecidableEq, Repr

namespace PolygonError

def message : PolygonError -> String
  | .tooFewVertices found =>
      s!"A regular polygon needs at least 3 vertices, got {found}."
  | .noLoops found => s!"'num_loops' must be positive, got {found}."
  | .negativeCount found =>
      s!"Number of samples, {found}, must be non-negative."
  | .tooManyLoops => "int too large to convert to float"
  | .capacity error => error.message
  | .loop error => error.message

end PolygonError

namespace Polygon

variable {α : Type} [Scalar α]

/-- `count` angles that divide a turn evenly, starting at zero. -/
def turnAngles (count : Nat) : List α :=
  let step : α := 2.0 * pi / (count : α)
  (List.range count).map fun (i : Nat) => (i : α) * step

/-- A point above the circle of a given radius around the third axis. -/
def onCircle (radius height theta : α) : Vec3 α :=
  { x := radius * cos theta, y := radius * sin theta, z := height }

/-- A regular polygon of unit vectors at an angular radius from the center. -/
def regularVertices (center : Vec3 α) (radius : α) (count : Nat) :
    List (Vec3 α) :=
  let frame := Frame.ofAxis center
  (turnAngles count).map fun theta =>
    let point := frame.toGlobal (onCircle (sin radius) (cos radius) theta)
    point.divBy point.norm

def regular (center : Vec3 α) (radius : α) (count : Int) :
    Except PolygonError (List (Vec3 α)) :=
  if count < 3 then .error (.tooFewVertices count)
  else .ok (regularVertices center radius count.toNat)

/-- The tangent-plane radius of loop `index` of `loops`; the last one has
radius 0.005. -/
def concentricRadius (loops index : Nat) : α :=
  0.005 * ((index + 1 : Nat) : α) / (loops : α)

/-- The vertices of a loop around the center, drawn in the tangent plane there
and projected to the sphere. -/
def tangentVertices (center : Vec3 α) (radius : α) (count : Nat) :
    List (Vec3 α) :=
  let frame := Frame.ofAxis center
  (turnAngles count).map fun theta =>
    let point := onCircle radius 1.0 theta
    frame.toGlobal (point.divBy point.norm)

theorem length_tangentVertices (center : Vec3 α) (radius : α) (count : Nat) :
    (tangentVertices center radius count).length = count := by
  simp [tangentVertices, turnAngles]

def tangentLoop (center : Vec3 α) (radius : α) (count : Nat)
    (h : 3 ≤ count) : Loop α :=
  { vertices := (tangentVertices center radius count).toArray
    three_le := by simpa [length_tangentVertices] using h }

def concentric (center : Vec3 α) (loops count : Int) :
    Except PolygonError (List (Loop α)) :=
  if loops < 1 then .error (.noLoops loops)
  else if count < 0 then .error (.negativeCount count)
  else if !isFinite (loops.toNat : α) then .error .tooManyLoops
  else if h : 3 ≤ count.toNat then
    .ok ((List.range loops.toNat).map fun index =>
      tangentLoop center (concentricRadius loops.toNat index) count.toNat h)
  else .error (.loop (.tooFewVertices count.toNat))

/-!
## Polygons that fit into memory
-/

def regularInRoom (center : Vec3 α) (radius : α) (count : Int) :
    Except PolygonError (List (Vec3 α)) := do
  (VertexCount.check count.toNat).mapError .capacity
  regular center radius count

def concentricInRoom (center : Vec3 α) (loops count : Int) :
    Except PolygonError (List (Loop α)) := do
  if 1 ≤ loops then (VertexCount.check count.toNat).mapError .capacity
  concentric center loops count

end Polygon

end SphereFixtures
