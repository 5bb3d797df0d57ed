import SphereFixtures.Proofs.Logging.Texts
import SphereFixtures.Proofs.Logging.Writers

/-!
# Delivery of records

After any history of setups, a record of the package is written once to the
console and once to the log file of the last setup, as far as its level reaches
the one of that setup, and it reaches the root if the last setup says so.  Files
of earlier setups get nothing more.
-/

namespace SphereFixtures

namespace Logging

namespace State

/-!
## One record
-/

/-- What a record adds after a setup. -/
structure Delivers (state : State) (last : Setup) (record : Record) (time : String) :
    Prop where
  console_eq :
    (state.emit record).journal.consoleLines time =
      state.journal.consoleLines time ++
        if state.isEnabled record = true ∧ last.level ≤ record.level then
          [Layout.full.line time record]
        else []
  logFile_eq : last.logFile ≠ "" ->
    exists text, state.journal.fileText? time last.logFile = some text ∧
      (state.emit record).journal.fileText? time last.logFile = some (text ++
        if state.isEnabled record = true ∧ last.level ≤ record.level then
          Layout.full.line time record ++ "\n"
        else "")
  heard_eq :
    (state.emit record).journal.heard =
      state.journal.heard ++
        if state.isEnabled record = true ∧ last.propagate = true then [record] else []

namespace Follows

variable {actions : List Action} {state : State} (h : Follows actions state)
  {last : Setup} (hlast : (Action.setups actions).getLast? = some last)

include h hlast

theorem delivers (hdistinct : (Action.files actions).Nodup) {record : Record}
    (hunder : state.Under Registry.packagePath record) (time : String) :
    Delivers state last record time where
  console_eq := by
    rw [Journal.consoleLines, writtenTo_emit, h.filter_writers_console hlast hunder,
      List.map_append]
    congr 1
    split <;> rfl
  logFile_eq := by
    intro hname
    rcases h.exists_handle_of_mem
      (Action.logFile_mem_files (List.mem_of_getLast? hlast) hname) with
      ⟨handle, hopened⟩
    refine ⟨_, h.fileText?_eq hdistinct time hopened, ?_⟩
    rw [h.fileText?_emit hdistinct time hopened, h.fileText?_eq hdistinct time hopened,
      h.filter_writers_logFile hlast hunder hdistinct hname hopened]
    split <;> simp
  heard_eq := by
    rw [Journal.heard, writtenTo_emit, h.filter_writers_listener hlast hunder,
      List.map_append]
    congr 1
    split <;> rfl

end Follows

/-!
## Any history
-/

/-- After any setups, with all files distinct, and any records. -/
theorem delivery_after_setups (before : List Action) (last : Setup) (since : List Record)
    (hdistinct : (Action.files (before ++ [.setUp last])).Nodup) (record : Record)
    (hunder : ((State.initial.actAll (before ++ [.setUp last])).emitAll since).Under
      Registry.packagePath record) (time : String) :
    let state := (State.initial.actAll (before ++ [.setUp last])).emitAll since
    Delivers state last record time ∧
      (state.isEnabled record = true <->
        0 < record.level ∧
          (if state.Under Registry.mismatchPath record ∧
              Action.mismatchFile (before ++ [.setUp last]) ≠ "" then Level.warning
            else if last.level = 0 then Level.warning else last.level) ≤
            record.level) ∧
      (exists own, FileHandlers state.journal last.level .full last.logFile own ∧
        state.registry.package.handlers = consoleHandler last.level :: own) ∧
      state.registry.mismatch.handlers.length ≤ 1 ∧
      forall setup, setup ∈ Action.setups before -> setup.logFile ≠ "" ->
        (state.emit record).journal.fileText? time setup.logFile =
          (State.initial.actAll before).journal.fileText? time setup.logFile := by
  intro state
  have h : Follows (before ++ [.setUp last]) state := (follows _).emitAll since
  have hlast : (Action.setups (before ++ [.setUp last])).getLast? = some last := by
    rw [Action.setups_append_setUp, List.getLast?_concat]
  refine ⟨h.delivers hlast hdistinct hunder time, h.isEnabled_iff hlast hunder, ?_, ?_, ?_⟩
  · rcases h.exists_package_eq hlast with ⟨own, hown, hpackage⟩
    rw [hpackage]
    exact ⟨own, hown, rfl⟩
  · rw [h.mismatch.handlers.length_eq]
    split <;> decide
  · intro setup hsetup hname
    have hnext : state.emit record = State.initial.actAll
        (before ++ [.setUp last] ++ (since ++ [record]).map .emit) := by
      rw [actAll_append, ← emitAll_eq_actAll, emitAll, List.foldl_append]
      rfl
    rw [hnext]
    exact fileText?_actAll_of_setUp before _ (by rwa [Action.files_append_map_emit])
      (Action.logFile_mem_files hsetup hname)
      (Action.logFile_not_mem_current hdistinct hsetup) time

/-- Two setups; the second one names another log file and is quieter. -/
theorem delivery_after_quieter_setup :
    let loud : Setup :=
      { level := Level.debug, propagate := true
        logFile := "first.log", mismatchFile := "mismatches.log" }
    let quiet : Setup :=
      { level := 40, propagate := false, logFile := "second.log", mismatchFile := "" }
    let warned : Record :=
      { logger := ["spheretest", "fractal"]
        level := Level.warning
        message := "Setting out of range" }
    let failed : Record :=
      { logger := Registry.packagePath, level := 40, message := "Failed" }
    let state := (State.initial.actAll [.setUp loud, .setUp quiet]).emitAll [warned]
    Delivers state quiet failed "12:00:00" ∧ state.isEnabled failed = true ∧
      (state.emit failed).journal.fileText? "12:00:00" "first.log" =
        (State.initial.actAll [.setUp loud]).journal.fileText? "12:00:00" "first.log" := by
  intro loud quiet warned failed state
  have hdistinct : (Action.files ([.setUp loud] ++ [.setUp quiet])).Nodup := by
    decide
  have hunder : state.Under Registry.packagePath failed :=
    Registry.under_self _ _
  rcases delivery_after_setups [.setUp loud] quiet [warned] hdistinct failed hunder
    "12:00:00" with ⟨hdelivers, henabled, _, _, hearlier⟩
  exact ⟨hdelivers, henabled.mpr (by decide), hearlier loud (by decide) (by decide)⟩

end State

end Logging

end SphereFixtures
