/-!
# Loggers

Records travel from the logger that emits them to its ancestors, and on the way
reach the handlers of every logger that they pass.  The name of a logger is a
path, and its ancestors are the shorter paths at its beginning.
-/

namespace SphereFixtures

namespace Logging

/-!
## Records
-/

abbrev Level := Int

namespace Level

def debug : Level := 10

def info : Level := 20

def warning : Level := 30

def name (level : Level) : String :=
  if level = 10 then "DEBUG"
  else if level = 20 then "INFO"
  else if level = 30 then "WARNING"
  else if level = 40 then "ERROR"
  else if level = 50 then "CRITICAL"
  else s!"Level {level}"

end Level

abbrev Path := List String

structure Record where
  logger : Path
  level : Level
  message : String
deriving DecidableEq, Repr

namespace Path

def text (path : Path) : String :=
  if path = [] then "root" else ".".intercalate path

/-- The path of a name; dots separate its parts. -/
def ofText (name : String) : Path :=
  if name = "" ∨ name = "root" then [] else name.splitOn "."

/-- A path and its ancestors from the last part on, where the parts are given
in reverse.  An ancestor that ends in an empty part hides the next one, unless
its logger is in use. -/
def upwards (used : List Path) : List String -> List Path
  | [] => [[]]
  | [part] => [[part], []]
  | part :: next :: rest =>
      let path := (part :: next :: rest).reverse
      if part = "" ∧ path ∉ used then path :: upwards used rest
      else path :: upwards used (next :: rest)

end Path

/-!
## Handlers
-/

/-- Where a handler writes.  Every time a file is opened it gets a new handle,
so that two handlers never share one. -/
inductive Sink where
  | console
  | file (handle : Nat)
  /-- Whoever listens at the root of all loggers. -/
  | listener
deriving DecidableEq, Repr

inductive Layout where
  | full
  | messageOnly
deriving DecidableEq, Repr

namespace Layout

def line (layout : Layout) (time : String) (record : Record) : String :=
  match layout with
  | .full => time ++ " - " ++ record.logger.text ++ " - "
      ++ Level.name record.level ++ " - " ++ record.message
  | .messageOnly => record.message

end Layout

structure Handler where
  sink : Sink
  level : Level
  layout : Layout
deriving DecidableEq, Repr

/-!
## Loggers
-/

structure Logger where
  /-- The least level of a record that passes; zero leaves it to an ancestor. -/
  level : Level
  propagate : Bool
  handlers : List Handler
deriving DecidableEq, Repr

namespace Logger

def plain : Logger :=
  { level := 0, propagate := true, handlers := [] }

end Logger

/-- The loggers that are ever configured; all the other ones are plain. -/
structure Registry where
  root : Logger
  package : Logger
  mismatch : Logger
  used : List Path
deriving DecidableEq, Repr

namespace Registry

def packagePath : Path := ["spheretest"]

def mismatchPath : Path := ["spheretest", "verification"]

/-- Loggers before any configuration: the root lets warnings pass and has one
listener. -/
def initial : Registry :=
  { root :=
      { Logger.plain with
        level := Level.warning
        handlers := [{ sink := .listener, level := 0, layout := .messageOnly }] }
    package := Logger.plain
    mismatch := Logger.plain
    used := [] }

def use (registry : Registry) (path : Path) : Registry :=
  { registry with used := path :: registry.used.filter (· ≠ path) }

def logger (registry : Registry) (path : Path) : Logger :=
  if path = mismatchPath then registry.mismatch
  else if path = packagePath then registry.package
  else if path = [] then registry.root
  else Logger.plain

def chain (registry : Registry) (path : Path) : List Logger :=
  (Path.upwards registry.used path.reverse).map registry.logger

/-- The least level that passes: the first one in the chain that is set. -/
def effectiveLevel : List Logger -> Level
  | [] => 0
  | l :: ancestors => if l.level = 0 then effectiveLevel ancestors else l.level

/-- The loggers whose handlers a record is offered to. -/
def reached : List Logger -> List Logger
  | [] => []
  | l :: ancestors => if l.propagate then l :: reached ancestors else [l]

/-- Whether a record passes its logger.  Levels up to zero never do. -/
def isEnabled (registry : Registry) (record : Record) : Bool :=
  0 < record.level
    && effectiveLevel (registry.chain record.logger) ≤ record.level

def receivers (registry : Registry) (record : Record) : List Handler :=
  if registry.isEnabled record then
    ((reached (registry.chain record.logger)).flatMap Logger.handlers).filter
      fun handler => handler.level ≤ record.level
  else
    []

end Registry

end Logging

end SphereFixtures
