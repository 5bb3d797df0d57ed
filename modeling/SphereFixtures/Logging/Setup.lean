import SphereFixtures.Logging.Journal

/-!
# Setting up logging

A setup gives the package logger a console handler and, if a file is named, a
file handler, in place of all handlers that it had.  A second file may be named
for the mismatches alone; they are written there whatever the level is.
-/

namespace SphereFixtures

namespace Logging

structure Setup where
  level : Level
  propagate : Bool
  /-- The file of the package; no file is opened when the name is empty. -/
  logFile : String
  /-- The file of the mismatches; the one in use is kept when the name is
  empty. -/
  mismatchFile : String
deriving DecidableEq, Repr

namespace Setup

def standard : Setup :=
  { level := Level.info, propagate := true, logFile := "", mismatchFile := "" }

end Setup

structure State where
  registry : Registry
  journal : Journal

namespace State

def initial : State :=
  { registry := Registry.initial, journal := [] }

def emit (state : State) (record : Record) : State :=
  let registry := state.registry.use record.logger
  { registry := registry
    journal := state.journal ++ (registry.receivers record).map fun handler =>
      Event.written handler record }

def emitAll (state : State) (records : List Record) : State :=
  records.foldl emit state

/-- A handler for a file that is opened now, or none for an empty name. -/
def fileHandler (journal : Journal) (file : String) (level : Level)
    (layout : Layout) : List Handler × Journal :=
  if file = "" then ([], journal)
  else
    ([{ sink := .file journal.handles, level := level, layout := layout }],
      journal ++ [.opened file])

def consoleHandler (level : Level) : Handler :=
  { sink := .console, level := level, layout := .full }

def initialized : Record :=
  { logger := Registry.packagePath
    level := Level.info
    message := "Logging initialized." }

/-- The loggers and the journal after the changes of a setup. -/
def configure (state : State) (setup : Setup) : State :=
  let (ownFile, journal) :=
    fileHandler state.journal setup.logFile setup.level .full
  let package : Logger :=
    { level := setup.level
      propagate := setup.propagate
      handlers := consoleHandler setup.level :: ownFile }
  let (mismatchFile, journal) :=
    fileHandler journal setup.mismatchFile Level.warning .messageOnly
  let mismatch : Logger :=
    if setup.mismatchFile = "" then state.registry.mismatch
    else
      { state.registry.mismatch with
        level := Level.warning, handlers := mismatchFile }
  { registry :=
      { state.registry with package := package, mismatch := mismatch }
    journal := journal }

def setUp (state : State) (setup : Setup) : State :=
  (state.configure setup).emit initialized

end State

end Logging

end SphereFixtures
