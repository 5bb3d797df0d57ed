import SphereFixtures.Fractal.Settings
import SphereFixtures.Fractal.Subdivision
import SphereFixtures.Geometry.Frame
import SphereFixtures.Geometry.Loop

/-!
# Snowflakes

The boundary of a fractal grows from an equilateral triangle in the plane that
touches the sphere at the center.  Projecting the plane from the middle of the
sphere keeps the boundary free of crossings and shrinks it slightly.
-/

namespace SphereFixtures

open Scalar

/-!
## In the plane
-/

namespace Snowflake

variable {α : Type} [Scalar α]

/-- The inner points of a subdivided edge: two on the edge, at a fraction `e`
of its length from either end, and one at a distance `f` of its length from
the middle, to the right of the edge. -/
def cut (e f : α) : Cut (Vec2 α) := fun a b =>
  let direction := b - a
  let near := a + Vec2.scale e direction
  let apex := Vec2.scale 0.5 (a + b) - Vec2.scale f direction.turned
  let far := b - Vec2.scale e direction
  (near, apex, far)

def cornerA : Vec2 α := { x := 1.0, y := 0.0 }

def cornerB : Vec2 α := { x := -0.5, y := sqrt 3.0 / 2.0 }

def cornerC : Vec2 α := { x := -0.5, y := -sqrt 3.0 / 2.0 }

def sides : List (Vec2 α × Vec2 α) :=
  [(cornerA, cornerB), (cornerB, cornerC), (cornerC, cornerA)]

/-- The point of the sphere that the middle of the sphere sees behind a point
of the tangent plane, for a triangle of a given radius. -/
def project (frame : Frame α) (radius : α) (p : Vec2 α) : Vec3 α :=
  let point := frame.toGlobal { x := p.x * radius, y := p.y * radius, z := 1.0 }
  point.divBy point.norm

end Snowflake

/-!
## Growing
-/

inductive GrowthError where
  | noMaxLevel
  | draw (error : DrawError)
  | loop (error : LoopError)
deriving DecidableEq, Repr

namespace GrowthError

def message : GrowthError -> String
  | .noMaxLevel => "set_max_level() must be called before generating a fractal."
  | .draw error => error.message
  | .loop error => error.message

end GrowthError

namespace Settings

/-- The levels of the settings, once a maximum level is set. -/
def levels? {α : Type} (s : Settings α) : Option Levels :=
  if h : 0 ≤ s.maxLevel then
    some
      { least := s.leastLevel.toNat
        greatest := s.maxLevel.toNat
        least_le := by
          unfold leastLevel
          split <;> omega }
  else
    none

variable {α : Type} [Scalar α] {σ : Type} [WordSource σ]

def cut (s : Settings α) : Cut (Vec2 α) :=
  Snowflake.cut s.edgeFraction s.offsetFraction

def boundary (s : Settings α) :
    Attempt GrowthError σ (Array (Edge (Vec2 α))) :=
  match s.levels? with
  | none => throw .noMaxLevel
  | some levels =>
      (Subdivision.boundary s.cut levels Snowflake.sides).adapt .draw

/-- The vertices of one realization, in the tangent plane and for a nominal
radius of one. -/
def vertices (s : Settings α) : Attempt GrowthError σ (Array (Vec2 α)) := do
  return (← s.boundary).map Edge.start

/-- One realization on the sphere, around the third axis of a frame. -/
def makeLoop (s : Settings α) (frame : Frame α) (radius : α) :
    Attempt GrowthError σ (Loop α) := do
  let points := (← s.vertices).map (Snowflake.project frame radius)
  ((Loop.ofVertices points).mapError .loop : Except GrowthError (Loop α))

end Settings

/-!
## Pictures
-/

structure Picture (α : Type) where
  title : String
  /-- The boundary, with its first vertex once more at the end. -/
  outline : Array (Vec2 α)
  circles : List α

namespace Settings

def pictureTitle (s : Settings Float) (edges : Nat) : String :=
  "Fractal, dimension " ++ Decimal.fixedText 3 s.dimension
    ++ s!", {edges} edges"

/-- A picture of one realization, with the circles of the radius factors. -/
def picture {σ : Type} [WordSource σ] (s : Settings Float) :
    Attempt GrowthError σ (Picture Float) := do
  let vertices ← s.vertices
  return {
    title := s.pictureTitle vertices.size
    outline := vertices ++ vertices.extract 0 1
    circles := [s.minRadiusFactor, s.maxRadiusFactor] }

end Settings

end SphereFixtures
