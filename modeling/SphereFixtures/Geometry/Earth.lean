import SphereFixtures.Scalar

/-!
# Distances and areas on the Earth

Angles stand for distances and steradians for areas, on a sphere of the
Earth's mean radius.
-/

namespace SphereFixtures

open Scalar

namespace Earth

variable {α : Type} [Scalar α]

/-- The Earth's mean radius in kilometres. -/
def radiusKm : α := 6371.01

def kmToAngle (km : α) : α :=
  km / radiusKm

def metersToAngle (meters : α) : α :=
  kmToAngle (0.001 * meters)

def areaToKm2 (steradians : α) : α :=
  steradians * square radiusKm

def areaToM2 (steradians : α) : α :=
  areaToKm2 steradians * 1000000.0

end Earth

end SphereFixtures
