import SphereFixtures.Demo.Arguments
import SphereFixtures.Demo.Environment
import SphereFixtures.Fractal.Snowflake
import SphereFixtures.Logging.Message
import SphereFixtures.Logging.Setup
import SphereFixtures.Sampling

/-!
# The demo

One fractal loop around a random frame, with the range of angles between its
vertices and its center beside the bounds that the settings promise.
-/

namespace SphereFixtures

namespace Demo

open Scalar Logging

/-!
## Statistics
-/

section

variable {α : Type} [Scalar α]

/-- The smaller of two numbers; one that does not compare wins. -/
def smaller (a b : α) : α :=
  if b < a then b else if b == b then a else b

def larger (a b : α) : α :=
  if a < b then b else if b == b then a else b

def smallest : List α -> α
  | [] => 0.0
  | x :: rest => rest.foldl smaller x

def largest : List α -> α
  | [] => 0.0
  | x :: rest => rest.foldl larger x

def centralAngles (frame : Frame α) (loop : Loop α) : List α :=
  loop.vertices.toList.map frame.z.angleTo

/-- What the demo reports about a loop: how many vertices it has, how far they
are from the center, and how far they should be, in degrees. -/
structure Measurement (α : Type) where
  vertices : Nat
  range : α × α
  bounds : α × α

def measurement (settings : Settings α) (radiusDegrees : α) (frame : Frame α)
    (loop : Loop α) : Measurement α :=
  let angles := centralAngles frame loop
  { vertices := loop.size
    range :=
      (radiansToDegrees (smallest angles), radiansToDegrees (largest angles))
    bounds :=
      (settings.minRadiusFactor * radiusDegrees,
        settings.maxRadiusFactor * radiusDegrees) }

def measure {σ : Type} [WordSource σ] (settings : Settings α)
    (radiusDegrees : α) : Attempt GrowthError σ (Measurement α) := do
  let frame ← (Sampling.frame : Draw σ (Frame α))
  let loop ← settings.makeLoop frame (degreesToRadians radiusDegrees)
  return measurement settings radiusDegrees frame loop

end

/-!
## Records
-/

def demoPath : Path := ["spheretest", "demo"]

def say (message : String) : Record :=
  { logger := demoPath, level := Level.info, message := message }

def loopRecord (settings : Settings Float) (vertices : Nat) : Record :=
  say (settings.text ++ s!": {vertices} vertices")

def rangeText (range : Float × Float) : String :=
  Decimal.fixedText 4 range.1 ++ " - " ++ Decimal.fixedText 4 range.2

def rangeRecord (range bounds : Float × Float) : Record :=
  say (s!"Radius range {rangeText range} deg (bounds {rangeText bounds} deg)")

def measurementRecords (settings : Settings Float) (radiusDegrees : Float)
    (m : Measurement Float) : List Record :=
  [Record.loopMade m.vertices (degreesToRadians radiusDegrees),
    loopRecord settings m.vertices, rangeRecord m.range m.bounds]

/-!
## Running
-/

inductive DemoError where
  /-- An option whose value is needed was given nothing. -/
  | nothingGiven (option : OptionId)
  | seed (error : SeedError)
  | setting (error : SettingError Float)
  | growth (error : GrowthError)

namespace DemoError

/-- The text for an option without a value, which depends on the first test
that needs the value. -/
def nothingGivenText : OptionId -> String
  | .seed => "'<=' not supported between instances of 'int' and 'list'"
  | .dimension => "'<=' not supported between instances of 'float' and 'list'"
  | .radius => "must be real number, not list"
  | _ => "'<' not supported between instances of 'list' and 'int'"

def message : DemoError -> String
  | .nothingGiven option => nothingGivenText option
  | .seed error => error.message
  | .setting error => error.message
  | .growth error => error.message

end DemoError

/-- A computation that leaves records, also when it fails. -/
abbrev Logged (β : Type) := ExceptT DemoError (StateM (List Record)) β

def log (records : List Record) : Logged Unit :=
  modify (· ++ records)

def valueOf {β : Type} (option : OptionId) : CommandLine.Given β -> Logged β
  | .value b => pure b
  | .nothing => throw (.nothingGiven option)

def start (seed : Int) : Logged Twister :=
  match Seed.ofInt seed with
  | .error error => throw (.seed error)
  | .ok seed => do
      log [Record.sourceReset seed]
      return Twister.ofSeed seed

def change (settings : Settings Float) (setting : Setting Float) :
    Logged (Settings Float) :=
  match settings.set setting with
  | .error error => throw (.setting error)
  | .ok settings => do
      log (setting.warnings.map Record.settingWarning)
      return settings

/-- Let a source serve an attempt, and go on with the source that it leaves. -/
def drawFrom {β : Type} (source : Twister)
    (attempt : Attempt GrowthError Twister β) : Logged (β × Twister) :=
  match attempt.run.run source with
  | (.error error, _) => throw (.growth error)
  | (.ok result, source) => return (result, source)

/-- The demo after logging is set up; the result is the number of pictures that
were shown. -/
def body (arguments : Arguments) (environment : Option String) :
    Logged Nat := do
  let _ ← start Seed.default.value
  let seed ←
    match arguments.seed with
    | some seed => valueOf .seed seed
    | none => do
        let (seed, records) := Environment.seed environment
        log records
        pure seed
  let source ← start seed
  let maxLevel ← valueOf .maxLevel arguments.maxLevel
  let settings ← change Settings.initial (.maxLevel maxLevel)
  let minLevel ← valueOf .minLevel arguments.minLevel
  let settings ← change settings (.minLevel minLevel)
  let dimension ← valueOf .dimension arguments.dimension
  let settings ← change settings (.dimension dimension)
  let radius ← valueOf .radius arguments.radiusDegrees
  let (m, source) ← drawFrom source (measure settings radius)
  log (measurementRecords settings radius m)
  if arguments.plot then
    let _ ← drawFrom source settings.picture
    return 1
  else
    return 0

/-- What a run of the demo leaves: its records, and the number of pictures or
the reason for which it stopped. -/
structure Report where
  records : List Record
  shown : Except DemoError Nat

def run (arguments : Arguments) (environment : Option String) : Report :=
  let (shown, records) := (body arguments environment).run.run []
  { records := records, shown := shown }

def logFile (arguments : Arguments) : String :=
  match arguments.logFile with
  | some (.value name) => name
  | _ => ""

def setup (arguments : Arguments) : Setup :=
  { Setup.standard with
    level := if arguments.debug then Level.debug else Level.info
    logFile := logFile arguments }

/-- The journal of a run, which ends with the time that it took. -/
def journal (arguments : Arguments) (report : Report)
    (timing : Record.Timing) : Journal :=
  let state := Logging.State.initial.setUp (setup arguments)
  (state.emitAll (report.records ++ [Record.finished "main" timing])).journal

end Demo

end SphereFixtures
