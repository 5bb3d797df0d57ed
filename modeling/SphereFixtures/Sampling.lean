import SphereFixtures.Geometry.Cap
import SphereFixtures.Geometry.Frame
import SphereFixtures.Geometry.Rect
import SphereFixtures.Random.Words

/-!
# Random points, frames and regions

Every function takes its words in a fixed order, so a source that starts from
the same seed gives the same geometry.
-/

namespace SphereFixtures

open Scalar

/-- Areas between which no area can be drawn, or a cap that is not made. -/
inductive SampleError (α : Type) where
  | areas (least greatest : α)
  | cap (error : CapError α)

namespace SampleError

def message : SampleError Float -> String
  | .areas least greatest =>
      s!"Require 0 < min_area <= max_area, got {Decimal.shortestText least}, {Decimal.shortestText greatest}."
  | .cap error => error.message

end SampleError

namespace Sampling

variable {α : Type} [Scalar α] {σ : Type} [WordSource σ]

def point : Draw σ (Vec3 α) := do
  let x ← Draw.between (-1.0) (1.0 : α)
  let y ← Draw.between (-1.0) (1.0 : α)
  let z ← Draw.between (-1.0) (1.0 : α)
  return Vec3.normalize { x := x, y := y, z := z }

/-- The frame with a given third axis whose second axis is turned away from a
given direction. -/
def frameFacing (z direction : Vec3 α) : Frame α :=
  let x := (z.cross direction).normalize
  { x := x, y := (z.cross x).normalize, z := z }

def frameAt (z : Vec3 α) : Draw σ (Frame α) := do
  return frameFacing z (← point)

def frame : Draw σ (Frame α) := do
  frameAt (← point)

/-- The area at a fraction of the way between two areas, on a logarithmic
scale, from the greatest down. -/
def areaBetween (least greatest fraction : α) : α :=
  greatest * pow (least / greatest) fraction

def cap (least greatest : α) : Attempt (SampleError α) σ (Cap α) := do
  if (0.0 : α) < least ∧ least ≤ greatest then
    let fraction ← (Draw.unit : Draw σ α)
    let center ← (point : Draw σ (Vec3 α))
    ((Cap.ofArea center (areaBetween least greatest fraction)).mapError .cap
      : Except (SampleError α) (Cap α))
  else
    throw (.areas least greatest)

/-- The point of a cap that is a given height below its top, in a direction
around its axis. -/
def pointBelowTop (cap : Cap α) (height theta : α) : Vec3 α :=
  let radius := sqrt (height * (2.0 - height))
  let point : Vec3 α :=
    { x := cos theta * radius, y := sin theta * radius, z := 1.0 - height }
  ((Frame.ofAxis cap.center).toGlobal point).normalize

/-- A point of a cap.  The area of a cap is proportional to its height, so the
height is drawn evenly. -/
def pointInCap (cap : Cap α) : Draw σ (Vec3 α) := do
  let height := (← Draw.unit) * cap.height
  let theta := 2.0 * pi * (← Draw.unit)
  return pointBelowTop cap height theta

/-- The latitude at a fraction of the area between the bounds. -/
def latitudeAt (rect : LatLngRect α) (fraction : α) : α :=
  asin (Words.between (sin rect.latLo) (sin rect.latHi) fraction)

def longitudeAt (rect : LatLngRect α) (fraction : α) : α :=
  rect.lngLo + fraction * rect.lngLength

def pointInRect (rect : LatLngRect α) : Draw σ (Vec3 α) := do
  let lat := latitudeAt rect (← Draw.unit)
  let lng := longitudeAt rect (← Draw.unit)
  return Vec3.ofLatLng lat lng

end Sampling

end SphereFixtures
