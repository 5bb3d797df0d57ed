import SphereFixtures.Fractal.Snowflake
import SphereFixtures.Session.Request

/-!
# Sources and fractals side by side

A bench holds any number of sources, and fractals that each draw from one of
them.  An action on one source leaves the other ones as they are.
-/

namespace SphereFixtures

structure Bench (α : Type) where
  sources : Array Twister
  /-- Every fractal with the number of its source. -/
  fractals : Array (Nat × Settings α)

namespace Bench

variable {α : Type}

def empty : Bench α :=
  { sources := #[], fractals := #[] }

def addSource (bench : Bench α) (seed : Seed) : Bench α :=
  { bench with sources := bench.sources.push (Twister.ofSeed seed) }

def addFractal [Scalar α] (bench : Bench α) (source : Nat) : Bench α :=
  { bench with fractals := bench.fractals.push (source, Settings.initial) }

/-- Let a source serve an attempt; nothing happens when there is none. -/
def onSource {ε β : Type} (bench : Bench α) (source : Nat)
    (attempt : Attempt ε Twister β) : Option (Except ε β) × Bench α :=
  match bench.sources[source]? with
  | none => (none, bench)
  | some t =>
      let (result, t) := attempt.run.run t
      (some result, { bench with sources := bench.sources.setIfInBounds source t })

def settings? (bench : Bench α) (fractal : Nat) : Option (Settings α) :=
  bench.fractals[fractal]?.map Prod.snd

def change [Scalar α] (bench : Bench α) (fractal : Nat) (setting : Setting α) :
    Option (Except (SettingError α) (Settings α)) × Bench α :=
  match bench.fractals[fractal]? with
  | none => (none, bench)
  | some (source, settings) =>
      match settings.set setting with
      | .error error => (some (.error error), bench)
      | .ok changed =>
          (some (.ok changed),
            { bench with
              fractals := bench.fractals.setIfInBounds fractal (source, changed) })

/-- Let the source of a fractal serve an attempt that uses its settings. -/
def onFractal {ε β : Type} (bench : Bench α) (fractal : Nat)
    (attempt : Settings α -> Attempt ε Twister β) :
    Option (Except ε β) × Bench α :=
  match bench.fractals[fractal]? with
  | none => (none, bench)
  | some (source, settings) => bench.onSource source (attempt settings)

end Bench

end SphereFixtures
