import SphereFixtures.CommandLine.Options
import SphereFixtures.DoublePrecision
import SphereFixtures.Fractal.Settings
import SphereFixtures.Text.Numeral

/-!
# Arguments of the demo
-/

namespace SphereFixtures

namespace Demo

open CommandLine

structure Arguments where
  /-- The seed, if it is not left to the environment. -/
  seed : Option (Given Int)
  maxLevel : Given Int
  minLevel : Given Int
  dimension : Given Float
  radiusDegrees : Given Float
  plot : Bool
  logFile : Option (Given String)
  debug : Bool

namespace Arguments

def standard : Arguments :=
  { seed := none
    maxLevel := .value 3
    minLevel := .value (-1)
    dimension := .value Settings.snowflakeDimension
    radiusDegrees := .value 10.0
    plot := false
    logFile := none
    debug := false }

end Arguments

inductive OptionId where
  | help
  | seed
  | maxLevel
  | minLevel
  | dimension
  | radius
  | plot
  | logFile
  | debug
deriving DecidableEq, Repr

def options : List (OptionSpec OptionId) :=
  [{ id := .help, spellings := ["-h", "--help"], takesValue := false },
    { id := .seed, spellings := ["--seed"], takesValue := true },
    { id := .maxLevel, spellings := ["--max-level"], takesValue := true },
    { id := .minLevel, spellings := ["--min-level"], takesValue := true },
    { id := .dimension, spellings := ["--dimension"], takesValue := true },
    { id := .radius, spellings := ["--radius-deg"], takesValue := true },
    { id := .plot, spellings := ["--plot"], takesValue := false },
    { id := .logFile, spellings := ["--log-file"], takesValue := true },
    { id := .debug, spellings := ["--debug"], takesValue := false }]

namespace Arguments

def readInt (spec : OptionSpec OptionId) (value : String) :
    Except UsageError Int :=
  match Numeral.int? value with
  | some n => .ok n
  | none => .error (.invalidValue spec.spellings "int" value)

def readFloat (spec : OptionSpec OptionId) (value : String) :
    Except UsageError Float :=
  match Numeral.float? value with
  | some x => .ok x
  | none => .error (.invalidValue spec.spellings "float" value)

/-- The arguments after one more option; the last one of a kind counts. -/
def apply (known : Arguments) (spec : OptionSpec OptionId)
    (given : Given String) : Except UsageError Arguments := do
  match spec.id with
  | .help => throw .helpWanted
  | .seed => return { known with seed := some (← given.read (readInt spec)) }
  | .maxLevel => return { known with maxLevel := ← given.read (readInt spec) }
  | .minLevel => return { known with minLevel := ← given.read (readInt spec) }
  | .dimension =>
      return { known with dimension := ← given.read (readFloat spec) }
  | .radius =>
      return { known with radiusDegrees := ← given.read (readFloat spec) }
  | .plot => return { known with plot := true }
  | .logFile => return { known with logFile := some given }
  | .debug => return { known with debug := true }

def ofList (arguments : List String) : Except UsageError Arguments :=
  read options apply standard arguments

end Arguments

end Demo

end SphereFixtures
