import SphereFixtures.Logging.Registry
import SphereFixtures.Random.Seed
import SphereFixtures.Text.Numeral
import SphereFixtures.Text.Quoted

/-!
# The seed of the environment

A test run takes its seed from a variable of the environment.  A value that is
no whole number is ignored, with a warning.
-/

namespace SphereFixtures

namespace Environment

def seedVariable : String := "SPHERETEST_RANDOM_SEED"

def ignored (value : String) : Logging.Record :=
  { logger := ["spheretest", "config"]
    level := Logging.Level.warning
    message :=
      s!"Ignoring non-integer {seedVariable}=" ++ quoted value
        ++ s!", using {Seed.default.value}." }

/-- The seed for a value of the variable, which may be unset, and the records
that go with it. -/
def seed (value? : Option String) : Int × List Logging.Record :=
  match value? with
  | none => (Seed.default.value, [])
  | some value =>
      match Numeral.int? value with
      | some n => (n, [])
      | none => (Seed.default.value, [ignored value])

end Environment

end SphereFixtures
