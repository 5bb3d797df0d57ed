import SphereFixtures.Fractal.Settings
import SphereFixtures.Logging.Registry
import SphereFixtures.Nearest.Check
import SphereFixtures.Random.Seed

/-!
# The records of this library

Which logger says what, and at which level.
-/

namespace SphereFixtures

namespace Logging

namespace Record

def sourceReset (seed : Seed) : Record :=
  { logger := ["spheretest", "random_source"]
    level := Level.debug
    message := s!"Random source reset with seed {seed.value}" }

def settingWarning (warning : SettingWarning Float) : Record :=
  { logger := ["spheretest", "fractal"]
    level := Level.warning
    message := warning.message }

def loopMade (vertices : Nat) (radius : Float) : Record :=
  { logger := ["spheretest", "fractal"]
    level := Level.debug
    message := s!"Fractal loop with {vertices} vertices, nominal radius "
      ++ Decimal.shortestText radius }

def mismatch (m : Nearest.Mismatch Float) : Record :=
  { logger := Registry.mismatchPath
    level := Level.warning
    message := m.text }

/-- An elapsed time and a processor time, in seconds. -/
structure Timing where
  wall : String
  processor : String

def finished (task : String) (timing : Timing) : Record :=
  { logger := ["spheretest", "dev"]
    level := Level.info
    message :=
      s!"{task} finished in {timing.wall} s (cpu {timing.processor} s)" }

end Record

end Logging

end SphereFixtures
