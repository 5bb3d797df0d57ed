import SphereFixtures.Decimal.Text
import SphereFixtures.DoublePrecision
import SphereFixtures.Geometry.Vector

/-!
# Latitude-longitude rectangles

Bounds are in radians.  The longitude interval runs eastwards from its lower
to its upper end, so it crosses the antimeridian when the lower end is the
larger number.
-/

namespace SphereFixtures

open Scalar

inductive RectError (α : Type) where
  | latitude (lo hi : α)
  | longitude (lo hi : α)

namespace RectError

def interval (lo hi : Float) : String :=
  s!"[{Decimal.shortestText lo}, {Decimal.shortestText hi}]"

def message : RectError Float -> String
  | .latitude lo hi => s!"Invalid latitude interval {interval lo hi}."
  | .longitude lo hi => s!"Invalid longitude interval {interval lo hi}."

end RectError

structure LatLngRect (α : Type) where
  latLo : α
  latHi : α
  lngLo : α
  lngHi : α
deriving DecidableEq, Repr

namespace LatLngRect

variable {α : Type} [Scalar α]

/-- The latitudes are ordered and lie between the poles. -/
def LatitudesValid (r : LatLngRect α) : Prop :=
  -pi / 2.0 ≤ r.latLo ∧ r.latLo ≤ r.latHi ∧ r.latHi ≤ pi / 2.0

instance (r : LatLngRect α) : Decidable r.LatitudesValid :=
  inferInstanceAs (Decidable (_ ∧ _ ∧ _))

/-- A longitude lies more than half a turn away from zero. -/
def LongitudesBeyond (r : LatLngRect α) : Prop :=
  pi < Scalar.abs r.lngLo ∨ pi < Scalar.abs r.lngHi

instance (r : LatLngRect α) : Decidable r.LongitudesBeyond :=
  inferInstanceAs (Decidable (_ ∨ _))

def ofBounds (latLo latHi lngLo lngHi : α) :
    Except (RectError α) (LatLngRect α) :=
  let r : LatLngRect α :=
    { latLo := latLo, latHi := latHi, lngLo := lngLo, lngHi := lngHi }
  if ¬ r.LatitudesValid then .error (.latitude latLo latHi)
  else if r.LongitudesBeyond then .error (.longitude lngLo lngHi)
  else .ok r

def lngLength (r : LatLngRect α) : α :=
  if r.lngLo ≤ r.lngHi then r.lngHi - r.lngLo
  else r.lngHi - r.lngLo + 2.0 * pi

def containsLat (r : LatLngRect α) (lat : α) : Bool :=
  decide (r.latLo ≤ lat) && decide (lat ≤ r.latHi)

def containsLng (r : LatLngRect α) (lng : α) : Bool :=
  if r.lngLo ≤ r.lngHi then
    decide (r.lngLo ≤ lng) && decide (lng ≤ r.lngHi)
  else
    decide (r.lngLo ≤ lng) || decide (lng ≤ r.lngHi)

def contains (r : LatLngRect α) (p : Vec3 α) : Bool :=
  r.containsLat (atan2 p.z (hypot p.x p.y)) && r.containsLng (atan2 p.y p.x)

end LatLngRect

end SphereFixtures
