import Mathlib.Data.List.Nodup
import Mathlib.Data.List.Pairwise
import SphereFixtures.Proofs.Logging.History

/-!
# Writers of a record

A record of the package meets the handlers of the mismatch logger, if it comes
from there, then those of the package, and at last the listener at the root.
After any history, at most one of them writes to the console, and at most one to
each file.
-/

namespace SphereFixtures

namespace Logging

/-!
## Names of files
-/

namespace Action

variable {actions : List Action}

theorem exists_of_mismatchFile_ne (h : mismatchFile actions ≠ "") :
    exists setup, setup ∈ setups actions ∧ setup.mismatchFile = mismatchFile actions := by
  rw [mismatchFile] at h ⊢
  cases hlast : (mismatchFiles actions).getLast? with
  | none =>
      rw [hlast] at h
      exact absurd rfl h
  | some file =>
      rcases List.mem_map.mp (List.mem_filter.mp (List.mem_of_getLast? hlast)).left with
        ⟨setup, hmem, hname⟩
      exact ⟨setup, hmem, hname⟩

/-- No log file is a mismatch file. -/
theorem logFile_ne_mismatchFile (hdistinct : (files actions).Nodup)
    {setup other : Setup} (hsetup : setup ∈ setups actions)
    (hother : other ∈ setups actions) (hname : setup.logFile ≠ "") :
    setup.logFile ≠ other.mismatchFile := by
  intro heq
  -- the files of one setup are distinct, and those of two setups are disjoint
  rcases List.nodup_flatMap.mp hdistinct with ⟨hown, hpairs⟩
  by_cases hsame : setup = other
  · have hnodup := hown setup hsetup
    rw [hsame] at heq hname hnodup
    rw [Setup.files, ← heq] at hnodup
    simp [hname] at hnodup
  · have hsymmetric : Std.Symm (Function.onFun List.Disjoint Setup.files) :=
      ⟨fun _ _ hdisjoint _ hright hleft => hdisjoint hleft hright⟩
    have hdisjoint := hpairs.forall hsetup hother hsame
    apply hdisjoint (a := setup.logFile)
    · exact Setup.mem_files_iff.mpr ⟨.inl rfl, hname⟩
    · exact Setup.mem_files_iff.mpr ⟨.inr heq, hname⟩

theorem logFile_mem_files {setup : Setup} (hsetup : setup ∈ setups actions)
    (hname : setup.logFile ≠ "") : setup.logFile ∈ files actions :=
  List.mem_flatMap.mpr ⟨setup, hsetup, Setup.mem_files_iff.mpr ⟨.inl rfl, hname⟩⟩

theorem logFile_ne_current_mismatchFile (hdistinct : (files actions).Nodup) {setup : Setup}
    (hsetup : setup ∈ setups actions) (hname : setup.logFile ≠ "") :
    setup.logFile ≠ mismatchFile actions := by
  intro heq
  rcases exists_of_mismatchFile_ne (heq ▸ hname) with ⟨other, hother, hfile⟩
  exact logFile_ne_mismatchFile hdistinct hsetup hother hname (heq.trans hfile.symm)

/-- A setup takes all earlier log files out of use. -/
theorem logFile_not_mem_current {last : Setup}
    (hdistinct : (files (actions ++ [.setUp last])).Nodup) {setup : Setup}
    (hsetup : setup ∈ setups actions) :
    setup.logFile ∉ current (actions ++ [.setUp last]) := by
  intro hmem
  rcases mem_current_iff.mp hmem with ⟨_, hname⟩
  rw [files_append_setUp, List.nodup_append] at hdistinct
  rcases hdistinct with ⟨hbefore, _, hdisjoint⟩
  rcases mem_current_append_setUp hmem with hnew | ⟨heq, -⟩
  · exact hdisjoint _ (logFile_mem_files hsetup hname) _ hnew rfl
  · exact logFile_ne_current_mismatchFile hbefore hsetup hname heq

end Action

namespace State

/-- Whether a record passes its logger. -/
def isEnabled (state : State) (record : Record) : Bool :=
  (state.registry.use record.logger).isEnabled record

/-- Whether the logger of a record is the given one or lies below it. -/
def Under (state : State) (ancestor : Path) (record : Record) : Prop :=
  (state.registry.use record.logger).Under ancestor record.logger

instance (state : State) (ancestor : Path) (record : Record) :
    Decidable (state.Under ancestor record) :=
  inferInstanceAs (Decidable (Registry.Under _ _ _))

/-!
## Handlers for one sink
-/

namespace FileHandlers

variable {journal : Journal} {level : Level} {layout : Layout} {file : String}
  {handlers : List Handler} (h : FileHandlers journal level layout file handlers)

include h

theorem filter_eq_nil {sink : Sink}
    (hsink : forall handle : Nat, journal.opened[handle]? = some file ->
      sink ≠ .file handle) :
    handlers.filter (·.sink = sink) = [] := by
  cases h with
  | none => rfl
  | one hname hopened => simp [Ne.symm (hsink _ hopened)]

theorem filter_eq_self (hdistinct : journal.opened.Nodup) (hname : file ≠ "")
    {handle : Nat} (hopened : journal.opened[handle]? = some file) :
    handlers.filter (·.sink = .file handle) =
      [{ sink := .file handle, level := level, layout := layout }] := by
  cases h with
  | none => exact absurd rfl hname
  | @one _ other hother hsame =>
      have hlt := (List.getElem?_eq_some_iff.mp hopened).choose
      have heq : handle = other :=
        (List.getElem?_inj hlt hdistinct).mp (hopened.trans hsame.symm)
      simp [heq]

end FileHandlers

theorem PackageLogger.exists_own {journal : Journal} {last : Setup} {l : Logger}
    (h : PackageLogger journal (some last) l) :
    exists own, FileHandlers journal last.level .full last.logFile own ∧
      l = { level := last.level
            propagate := last.propagate
            handlers := consoleHandler last.level :: own } := by
  cases h with
  | setUp hown => exact ⟨_, hown, rfl⟩

/-!
## Writers of a record
-/

/-- The handler at the root of all loggers. -/
def listenerHandler : Handler :=
  { sink := .listener, level := 0, layout := .messageOnly }

namespace Follows

variable {actions : List Action} {state : State} (h : Follows actions state)
  {last : Setup} (hlast : (Action.setups actions).getLast? = some last)
  {record : Record} (hunder : state.Under Registry.packagePath record)

include h hlast

theorem exists_package_eq :
    exists own, FileHandlers state.journal last.level .full last.logFile own ∧
      state.registry.package =
        { level := last.level
          propagate := last.propagate
          handlers := consoleHandler last.level :: own } := by
  have hpackage := h.package
  rw [hlast] at hpackage
  exact hpackage.exists_own

include hunder

/-- Whether a record passes, by the levels that the setups gave. -/
theorem isEnabled_iff :
    state.isEnabled record = true <->
      0 < record.level ∧
        (if state.Under Registry.mismatchPath record ∧
            Action.mismatchFile actions ≠ "" then Level.warning
          else if last.level = 0 then Level.warning else last.level) ≤ record.level := by
  rcases h.exists_package_eq hlast with ⟨own, _, hpackage⟩
  have hlevel : Registry.effectiveLevel
      ((state.registry.use record.logger).chain record.logger) =
        if state.Under Registry.mismatchPath record ∧
            state.registry.mismatch.level ≠ 0 then state.registry.mismatch.level
        else if state.registry.package.level = 0 then state.registry.root.level
        else state.registry.package.level :=
    Registry.effectiveLevel_chain hunder
  have hroot : state.registry.root.level = Level.warning := by
    rw [h.root_eq]
    rfl
  rw [isEnabled, Registry.isEnabled, Bool.and_eq_true, decide_eq_true_eq,
    decide_eq_true_eq, hlevel, hroot, hpackage, h.mismatch.level_eq]
  by_cases hname : Action.mismatchFile actions = ""
  · simp [hname]
  · simp [hname, Level.warning]

/-- The handlers of a record for one sink, in the order in which it meets them. -/
theorem exists_filter_writers_eq (sink : Sink) :
    exists own, FileHandlers state.journal last.level .full last.logFile own ∧
      (state.writers record).filter (·.sink = sink) =
        if state.isEnabled record then
          ((if state.Under Registry.mismatchPath record then
                state.registry.mismatch.handlers.filter (·.sink = sink) else [])
            ++ [consoleHandler last.level].filter (·.sink = sink)
            ++ own.filter (·.sink = sink)
            ++ (if last.propagate then [listenerHandler].filter (·.sink = sink)
                else [])).filter (·.level ≤ record.level)
        else [] := by
  rcases h.exists_package_eq hlast with ⟨own, hown, hpackage⟩
  refine ⟨own, hown, ?_⟩
  have hwriters : state.writers record =
      if state.isEnabled record then
        ((if state.Under Registry.mismatchPath record then
              state.registry.mismatch.handlers else [])
          ++ state.registry.package.handlers
          ++ (if state.registry.package.propagate then
              state.registry.root.handlers else [])).filter (·.level ≤ record.level)
      else [] := by
    rw [writers, Registry.receivers,
      Registry.handlers_reached hunder h.mismatch.propagate_eq]
    rfl
  have hite : forall (p : Prop) [Decidable p] (handlers : List Handler),
      (if p then handlers else []).filter (·.sink = sink) =
        if p then handlers.filter (·.sink = sink) else [] := by
    intro p _ handlers
    split <;> rfl
  have hcomm : forall handlers : List Handler,
      (handlers.filter (·.level ≤ record.level)).filter (·.sink = sink) =
        (handlers.filter (·.sink = sink)).filter (·.level ≤ record.level) := by
    intro handlers
    rw [List.filter_filter, List.filter_filter]
    simp only [Bool.and_comm]
  rw [hwriters, hpackage, h.root_eq]
  split
  · rw [hcomm]
    congr 1
    rw [List.filter_append, List.filter_append, hite, hite, List.append_assoc _ _
      (own.filter _), ← List.filter_append]
    rfl
  · rfl

/-- At most one line goes to the console. -/
theorem filter_writers_console :
    (state.writers record).filter (·.sink = .console) =
      if state.isEnabled record = true ∧ last.level ≤ record.level then
        [consoleHandler last.level]
      else [] := by
  rcases h.exists_filter_writers_eq hlast hunder .console with ⟨own, hown, hwriters⟩
  have hmismatch : state.registry.mismatch.handlers.filter (·.sink = .console) = [] :=
    h.mismatch.handlers.filter_eq_nil (by simp)
  have hnone : own.filter (·.sink = .console) = [] := hown.filter_eq_nil (by simp)
  rw [hwriters, hmismatch, hnone]
  by_cases henabled : state.isEnabled record = true
  · simp [henabled, consoleHandler, listenerHandler, List.filter_cons]
  · simp [henabled]

/-- At most one line goes to the log file of the last setup. -/
theorem filter_writers_logFile (hdistinct : (Action.files actions).Nodup)
    (hname : last.logFile ≠ "") {handle : Nat}
    (hopened : state.journal.opened[handle]? = some last.logFile) :
    (state.writers record).filter (·.sink = .file handle) =
      if state.isEnabled record = true ∧ last.level ≤ record.level then
        [{ sink := .file handle, level := last.level, layout := .full }]
      else [] := by
  rcases h.exists_filter_writers_eq hlast hunder (.file handle) with
    ⟨own, hown, hwriters⟩
  have hne : last.logFile ≠ Action.mismatchFile actions :=
    Action.logFile_ne_current_mismatchFile hdistinct (List.mem_of_getLast? hlast) hname
  have hmismatch :
      state.registry.mismatch.handlers.filter (·.sink = .file handle) = [] := by
    refine h.mismatch.handlers.filter_eq_nil fun other hother heq => ?_
    cases heq
    rw [hopened] at hother
    exact hne (Option.some_inj.mp hother)
  rw [← h.opened_eq] at hdistinct
  rw [hwriters, hmismatch, hown.filter_eq_self hdistinct hname hopened]
  by_cases henabled : state.isEnabled record = true
  · simp [henabled, consoleHandler, listenerHandler, List.filter_cons]
  · simp [henabled]

/-- What passes goes on to the root if the last setup says so. -/
theorem filter_writers_listener :
    (state.writers record).filter (·.sink = .listener) =
      if state.isEnabled record = true ∧ last.propagate = true then
        [listenerHandler]
      else [] := by
  rcases h.exists_filter_writers_eq hlast hunder .listener with ⟨own, hown, hwriters⟩
  have hmismatch : state.registry.mismatch.handlers.filter (·.sink = .listener) = [] :=
    h.mismatch.handlers.filter_eq_nil (by simp)
  have hnone : own.filter (·.sink = .listener) = [] := hown.filter_eq_nil (by simp)
  rw [hwriters, hmismatch, hnone]
  by_cases henabled : state.isEnabled record = true
  · have hpositive := ((h.isEnabled_iff hlast hunder).mp henabled).left
    have hlevel : 0 ≤ record.level := Int.le_of_lt hpositive
    by_cases hpropagate : last.propagate = true
    · simp [henabled, hpropagate, consoleHandler, listenerHandler, hlevel]
    · simp [henabled, hpropagate, consoleHandler]
  · simp [henabled]

end Follows

end State

end Logging

end SphereFixtures
