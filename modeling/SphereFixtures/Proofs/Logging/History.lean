import Mathlib.Data.List.Induction
import SphereFixtures.Logging.Setup
import SphereFixtures.Proofs.Logging.Ancestors
import SphereFixtures.Proofs.Logging.Files

/-!
# Histories of setups and records

A history is any sequence of setups and emitted records.  The package logger
follows the last setup, and the mismatch logger the last one that named a
mismatch file; the handles of both belong to files that were opened for them.
-/

namespace SphereFixtures

namespace Logging

/-!
## Histories
-/

/-- The files that a setup opens, in order. -/
def Setup.files (setup : Setup) : List String :=
  [setup.logFile, setup.mismatchFile].filter (· ≠ "")

theorem Setup.mem_files_iff {setup : Setup} {file : String} :
    file ∈ setup.files <->
      (file = setup.logFile ∨ file = setup.mismatchFile) ∧ file ≠ "" := by
  simp [files]

inductive Action where
  | setUp (setup : Setup)
  | emit (record : Record)
deriving DecidableEq, Repr

namespace Action

def setup? : Action -> Option Setup
  | .setUp setup => some setup
  | .emit _ => none

def setups (actions : List Action) : List Setup :=
  actions.filterMap setup?

/-- All files that are named in a history, in the order in which they are opened. -/
def files (actions : List Action) : List String :=
  (setups actions).flatMap Setup.files

def mismatchFiles (actions : List Action) : List String :=
  ((setups actions).map Setup.mismatchFile).filter (· ≠ "")

/-- The log file of the last setup; the name is empty if there is none. -/
def logFile (actions : List Action) : String :=
  ((setups actions).getLast?.map Setup.logFile).getD ""

/-- The mismatch file that was named last, if any was. -/
def mismatchFile (actions : List Action) : String :=
  (mismatchFiles actions).getLast?.getD ""

/-- The files that are written to after a history. -/
def current (actions : List Action) : List String :=
  [logFile actions, mismatchFile actions].filter (· ≠ "")

section Append

variable (actions more : List Action) (setup : Setup) (record : Record)

theorem setups_append : setups (actions ++ more) = setups actions ++ setups more :=
  List.filterMap_append

theorem setups_append_setUp :
    setups (actions ++ [.setUp setup]) = setups actions ++ [setup] :=
  setups_append actions [.setUp setup]

theorem setups_append_emit : setups (actions ++ [.emit record]) = setups actions :=
  (setups_append actions [.emit record]).trans (List.append_nil _)

theorem files_append : files (actions ++ more) = files actions ++ files more := by
  rw [files, setups_append, List.flatMap_append]
  rfl

theorem files_append_setUp :
    files (actions ++ [.setUp setup]) = files actions ++ setup.files := by
  simp [files, setups_append_setUp]

theorem setups_map_emit (records : List Record) : setups (records.map .emit) = [] := by
  simp [setups, setup?]

theorem files_append_map_emit (records : List Record) :
    files (actions ++ records.map .emit) = files actions := by
  rw [files, setups_append, setups_map_emit, List.append_nil]
  rfl

theorem logFile_append_setUp : logFile (actions ++ [.setUp setup]) = setup.logFile := by
  simp [logFile, setups_append_setUp]

theorem mismatchFile_append_setUp :
    mismatchFile (actions ++ [.setUp setup]) =
      if setup.mismatchFile = "" then mismatchFile actions
      else setup.mismatchFile := by
  by_cases h : setup.mismatchFile = ""
  · simp [mismatchFile, mismatchFiles, setups_append_setUp, h]
  · simp [mismatchFile, mismatchFiles, setups_append_setUp, h]

theorem current_append_emit :
    current (actions ++ [.emit record]) = current actions := by
  rw [current, logFile, mismatchFile, mismatchFiles, setups_append_emit]
  rfl

end Append

theorem mem_current_iff {actions : List Action} {file : String} :
    file ∈ current actions <->
      (file = logFile actions ∨ file = mismatchFile actions) ∧ file ≠ "" := by
  simp [current]

/-- Only a setup brings files into use, and these are its own. -/
theorem mem_current_append_setUp {actions : List Action} {setup : Setup} {file : String}
    (h : file ∈ current (actions ++ [.setUp setup])) :
    file ∈ setup.files ∨ file = mismatchFile actions ∧ file ≠ "" := by
  rw [mem_current_iff, logFile_append_setUp, mismatchFile_append_setUp] at h
  rw [Setup.mem_files_iff]
  rcases h with ⟨heq | heq, hname⟩
  · exact .inl ⟨.inl heq, hname⟩
  · split at heq
    · exact .inr ⟨heq, hname⟩
    · exact .inl ⟨.inr heq, hname⟩

end Action

/-!
## States
-/

namespace State

def act (state : State) : Action -> State
  | .setUp setup => state.setUp setup
  | .emit record => state.emit record

def actAll (state : State) (actions : List Action) : State :=
  actions.foldl act state

theorem actAll_append (state : State) (actions more : List Action) :
    state.actAll (actions ++ more) = (state.actAll actions).actAll more :=
  List.foldl_append

theorem emitAll_eq_actAll (state : State) (records : List Record) :
    state.emitAll records = state.actAll (records.map .emit) := by
  rw [emitAll, actAll, List.foldl_map]
  rfl

/-!
## Handlers of a setup
-/

/-- Whether the handlers are those for a file of this name: none for an empty
name, and else one whose handle was opened for it. -/
inductive FileHandlers (journal : Journal) (level : Level) (layout : Layout) :
    String -> List Handler -> Prop where
  | none : FileHandlers journal level layout "" []
  | one {file : String} {handle : Nat} (hname : file ≠ "")
      (hopened : journal.opened[handle]? = some file) :
      FileHandlers journal level layout file
        [{ sink := .file handle, level := level, layout := layout }]

namespace FileHandlers

variable {journal : Journal} {level : Level} {layout : Layout} {file : String}
  {handlers : List Handler} (h : FileHandlers journal level layout file handlers)

include h

theorem of_isPrefix {later : Journal} (hlater : journal.opened <+: later.opened) :
    FileHandlers later level layout file handlers := by
  cases h with
  | none => exact .none
  | one hname hopened =>
      rcases hlater with ⟨files, heq⟩
      refine .one hname ?_
      rw [← heq, List.getElem?_append_left (List.getElem?_eq_some_iff.mp hopened).choose]
      exact hopened

theorem length_eq : handlers.length = if file = "" then 0 else 1 := by
  cases h with
  | none => rfl
  | one hname hopened =>
      rw [if_neg hname]
      rfl

theorem opened_of_mem {handler : Handler} {handle : Nat} (hmem : handler ∈ handlers)
    (hsink : handler.sink = .file handle) :
    journal.opened[handle]? = some file ∧ file ≠ "" := by
  cases h with
  | none => cases hmem
  | one hname hopened =>
      rw [List.mem_singleton.mp hmem] at hsink
      cases hsink
      exact ⟨hopened, hname⟩

end FileHandlers

section FileHandler

variable (journal : Journal) (file : String) (level : Level) (layout : Layout)

theorem opened_fileHandler :
    (fileHandler journal file level layout).2.opened =
      journal.opened ++ [file].filter (· ≠ "") := by
  rw [fileHandler]
  by_cases hname : file = ""
  · simp [hname]
  · simp [hname, Journal.opened]

theorem fileHandlers_fileHandler :
    FileHandlers (fileHandler journal file level layout).2 level layout file
      (fileHandler journal file level layout).1 := by
  rw [fileHandler]
  split
  · next hname =>
      rw [hname]
      exact .none
  · next hname =>
      refine .one hname ?_
      rw [Journal.opened_append, Journal.handles_eq_length]
      exact List.getElem?_concat_length

theorem ordered_fileHandler (h : journal.Ordered) :
    (fileHandler journal file level layout).2.Ordered := by
  rw [fileHandler]
  split
  · exact h
  · exact h.opened file

theorem writtenTo_fileHandler (sink : Sink) :
    (fileHandler journal file level layout).2.writtenTo sink =
      journal.writtenTo sink := by
  rw [fileHandler]
  split
  · rfl
  · rw [Journal.writtenTo_append]
    exact List.append_nil _

end FileHandler

/-- The package logger after a setup. -/
inductive PackageLogger (journal : Journal) : Option Setup -> Logger -> Prop where
  | plain : PackageLogger journal none Logger.plain
  | setUp {setup : Setup} {own : List Handler}
      (hown : FileHandlers journal setup.level .full setup.logFile own) :
      PackageLogger journal (some setup)
        { level := setup.level
          propagate := setup.propagate
          handlers := consoleHandler setup.level :: own }

/-- The mismatch logger after a mismatch file was named. -/
structure MismatchLogger (journal : Journal) (file : String) (l : Logger) : Prop where
  level_eq : l.level = if file = "" then 0 else Level.warning
  propagate_eq : l.propagate = true
  handlers : FileHandlers journal Level.warning .messageOnly file l.handlers

namespace PackageLogger

variable {journal : Journal} {last : Option Setup} {l : Logger}
  (h : PackageLogger journal last l)

include h

theorem of_isPrefix {later : Journal} (hlater : journal.opened <+: later.opened) :
    PackageLogger later last l := by
  cases h with
  | plain => exact .plain
  | setUp hown => exact .setUp (hown.of_isPrefix hlater)

theorem opened_of_mem {handler : Handler} {handle : Nat} (hmem : handler ∈ l.handlers)
    (hsink : handler.sink = .file handle) :
    journal.opened[handle]? = some ((last.map Setup.logFile).getD "") ∧
      (last.map Setup.logFile).getD "" ≠ "" := by
  cases h with
  | plain => cases hmem
  | setUp hown =>
      rcases List.mem_cons.mp hmem with heq | hown'
      · rw [heq] at hsink
        cases hsink
      · exact hown.opened_of_mem hown' hsink

end PackageLogger

theorem MismatchLogger.of_isPrefix {journal later : Journal} {file : String} {l : Logger}
    (h : MismatchLogger journal file l) (hlater : journal.opened <+: later.opened) :
    MismatchLogger later file l :=
  ⟨h.level_eq, h.propagate_eq, h.handlers.of_isPrefix hlater⟩

/-- What a history leads to. -/
structure Follows (actions : List Action) (state : State) : Prop where
  ordered : state.journal.Ordered
  opened_eq : state.journal.opened = Action.files actions
  root_eq : state.registry.root = Registry.initial.root
  package : PackageLogger state.journal (Action.setups actions).getLast?
    state.registry.package
  mismatch : MismatchLogger state.journal (Action.mismatchFile actions)
    state.registry.mismatch

/-!
## Records
-/

section Emit

variable (state : State) (record : Record)

/-- The handlers that write a record. -/
def writers : List Handler :=
  (state.registry.use record.logger).receivers record

theorem emit_journal :
    (state.emit record).journal =
      state.journal ++ (state.writers record).map fun handler =>
        Event.written handler record := rfl

theorem opened_emit : (state.emit record).journal.opened = state.journal.opened := by
  rw [emit_journal, Journal.opened_append]
  simp [Journal.opened]

theorem writtenTo_emit (sink : Sink) :
    (state.emit record).journal.writtenTo sink =
      state.journal.writtenTo sink ++
        ((state.writers record).filter (·.sink = sink)).map fun handler =>
          (handler.layout, record) := by
  rw [emit_journal, Journal.writtenTo_append]
  congr 1
  induction state.writers record with
  | nil => rfl
  | cons handler rest ih =>
      have hsplit := Journal.writtenTo_append [.written handler record]
        (rest.map fun handler => Event.written handler record) sink
      rw [List.map_cons, List.filter_cons]
      refine hsplit.trans ?_
      rw [Journal.writtenTo_written, ih]
      by_cases hsink : handler.sink = sink
      · simp [hsink]
      · simp [hsink]

end Emit

/-!
## Setups
-/

section Configure

variable (state : State) (setup : Setup)

theorem configure_journal :
    (state.configure setup).journal =
      (fileHandler (fileHandler state.journal setup.logFile setup.level .full).2
        setup.mismatchFile Level.warning .messageOnly).2 := rfl

theorem opened_configure :
    (state.configure setup).journal.opened = state.journal.opened ++ setup.files := by
  rw [configure_journal, opened_fileHandler, opened_fileHandler, List.append_assoc,
    ← List.filter_append]
  rfl

theorem writtenTo_configure (sink : Sink) :
    (state.configure setup).journal.writtenTo sink = state.journal.writtenTo sink := by
  rw [configure_journal, writtenTo_fileHandler, writtenTo_fileHandler]

end Configure

/-!
## Where a history leads
-/

namespace Follows

variable {actions : List Action} {state : State} (h : Follows actions state)

include h

/-- A record goes to the log file, or to the mismatch file if its logger lies
under the mismatch logger. -/
theorem opened_of_mem_writers {record : Record} {handler : Handler} {handle : Nat}
    (hmem : handler ∈ state.writers record) (hsink : handler.sink = .file handle) :
    state.journal.opened[handle]? = some (Action.logFile actions) ∧
        Action.logFile actions ≠ "" ∨
      (state.registry.use record.logger).Under Registry.mismatchPath record.logger ∧
        state.journal.opened[handle]? = some (Action.mismatchFile actions) ∧
        Action.mismatchFile actions ≠ "" := by
  rcases Registry.exists_under_of_mem_receivers hmem with ⟨ancestor, hunder, hhandler⟩
  rw [Registry.logger] at hhandler
  split at hhandler
  · next heq =>
      rw [heq] at hunder
      exact .inr ⟨hunder, h.mismatch.handlers.opened_of_mem hhandler hsink⟩
  · split at hhandler
    · exact .inl (h.package.opened_of_mem hhandler hsink)
    · split at hhandler
      · have hroot : handler ∈ Registry.initial.root.handlers := by
          rw [← h.root_eq]
          exact hhandler
        rw [List.mem_singleton.mp hroot] at hsink
        cases hsink
      · cases hhandler

theorem lt_of_mem_writers {record : Record} {handler : Handler} {handle : Nat}
    (hmem : handler ∈ state.writers record) (hsink : handler.sink = .file handle) :
    handle < state.journal.opened.length := by
  rcases h.opened_of_mem_writers hmem hsink with ⟨hopened, -⟩ | ⟨-, hopened, -⟩
  · exact (List.getElem?_eq_some_iff.mp hopened).choose
  · exact (List.getElem?_eq_some_iff.mp hopened).choose

/-- Only the setups of a history matter here. -/
theorem of_setups_eq {other : List Action}
    (hsetups : Action.setups other = Action.setups actions) : Follows other state where
  ordered := h.ordered
  opened_eq := by
    rw [h.opened_eq, Action.files, Action.files, hsetups]
  root_eq := h.root_eq
  package := by
    rw [hsetups]
    exact h.package
  mismatch := by
    rw [Action.mismatchFile, Action.mismatchFiles, hsetups]
    exact h.mismatch

theorem emit (record : Record) : Follows actions (state.emit record) where
  ordered := by
    rw [emit_journal]
    exact h.ordered.append_written fun handler hmem handle hsink =>
      h.lt_of_mem_writers hmem hsink
  opened_eq := by
    rw [opened_emit, h.opened_eq]
  root_eq := h.root_eq
  package := h.package.of_isPrefix (opened_emit state record ▸ List.prefix_rfl)
  mismatch := h.mismatch.of_isPrefix (opened_emit state record ▸ List.prefix_rfl)

theorem emitAll (records : List Record) : Follows actions (state.emitAll records) := by
  induction records generalizing state with
  | nil => exact h
  | cons record rest ih => exact ih (h.emit record)

theorem configure (setup : Setup) :
    Follows (actions ++ [.setUp setup]) (state.configure setup) where
  ordered := ordered_fileHandler _ _ _ _ (ordered_fileHandler _ _ _ _ h.ordered)
  opened_eq := by
    rw [opened_configure, h.opened_eq, Action.files_append_setUp]
  root_eq := h.root_eq
  package := by
    have hown := fileHandlers_fileHandler state.journal setup.logFile setup.level .full
    rw [Action.setups_append_setUp, List.getLast?_concat]
    refine .setUp (hown.of_isPrefix ?_)
    rw [configure_journal, opened_fileHandler _ setup.mismatchFile]
    exact List.prefix_append _ _
  mismatch := by
    rw [Action.mismatchFile_append_setUp]
    by_cases hname : setup.mismatchFile = ""
    · have hkept : (state.configure setup).registry.mismatch = state.registry.mismatch :=
        if_pos hname
      rw [if_pos hname, hkept]
      refine h.mismatch.of_isPrefix ?_
      rw [opened_configure]
      exact List.prefix_append _ _
    · have hnamed : (state.configure setup).registry.mismatch =
          { state.registry.mismatch with
            level := Level.warning
            handlers := (fileHandler
              (fileHandler state.journal setup.logFile setup.level .full).2
              setup.mismatchFile Level.warning .messageOnly).1 } :=
        if_neg hname
      rw [if_neg hname, hnamed]
      exact ⟨(if_neg hname).symm, h.mismatch.propagate_eq, fileHandlers_fileHandler _ _ _ _⟩

theorem setUp (setup : Setup) :
    Follows (actions ++ [.setUp setup]) (state.setUp setup) :=
  (h.configure setup).emit initialized

end Follows

theorem follows (actions : List Action) :
    Follows actions (State.initial.actAll actions) := by
  -- from the end, since a setup decides about everything before it
  induction actions using List.reverseRecOn with
  | nil =>
      exact
        { ordered := .nil
          opened_eq := rfl
          root_eq := rfl
          package := .plain
          mismatch := ⟨rfl, rfl, .none⟩ }
  | append_singleton actions action ih =>
      rw [actAll_append]
      cases action with
      | setUp setup => exact ih.setUp setup
      | emit record =>
          exact (ih.emit record).of_setups_eq (Action.setups_append_emit actions record)

end State

end Logging

end SphereFixtures
