import SphereFixtures.Logging.Review
import SphereFixtures.Proofs.Logging.Texts
import SphereFixtures.Proofs.Logging.Writers

/-!
# The mismatch file

A mismatch file starts empty and gets the messages of the mismatch logger, and
of those below it, one line for each record, until another mismatch file is
named.  So it holds every mismatch that a check records and nothing else.
-/

namespace SphereFixtures

namespace Logging

/-!
## Names of mismatch files
-/

namespace Action

variable {actions : List Action}

theorem exists_last_of_mismatchFile_ne (h : mismatchFile actions ≠ "") :
    exists last, (setups actions).getLast? = some last := by
  rcases exists_of_mismatchFile_ne h with ⟨setup, hmem, _⟩
  cases hlast : (setups actions).getLast? with
  | none =>
      rw [List.getLast?_eq_none_iff.mp hlast] at hmem
      cases hmem
  | some last => exact ⟨last, rfl⟩

theorem mismatchFile_mem_files_of_mem {setup : Setup} (hsetup : setup ∈ setups actions)
    (hname : setup.mismatchFile ≠ "") : setup.mismatchFile ∈ files actions :=
  List.mem_flatMap.mpr ⟨setup, hsetup, Setup.mem_files_iff.mpr ⟨.inr rfl, hname⟩⟩

theorem mismatchFile_mem_files (h : mismatchFile actions ≠ "") :
    mismatchFile actions ∈ files actions := by
  rcases exists_of_mismatchFile_ne h with ⟨setup, hmem, heq⟩
  rw [← heq] at h ⊢
  exact mismatchFile_mem_files_of_mem hmem h

theorem current_logFile_ne_mismatchFile (hdistinct : (files actions).Nodup)
    (h : mismatchFile actions ≠ "") : logFile actions ≠ mismatchFile actions := by
  rcases exists_last_of_mismatchFile_ne h with ⟨last, hlast⟩
  rw [logFile, hlast]
  intro heq
  rw [← heq] at h
  exact logFile_ne_current_mismatchFile hdistinct (List.mem_of_getLast? hlast) h heq

theorem mismatchFile_append_of_forall {more : List Action}
    (h : forall setup, setup ∈ setups more -> setup.mismatchFile = "") :
    mismatchFile (actions ++ more) = mismatchFile actions := by
  have hnone : mismatchFiles more = [] := by
    simpa [mismatchFiles] using h
  have happend : mismatchFiles (actions ++ more) =
      mismatchFiles actions ++ mismatchFiles more := by
    simp [mismatchFiles, setups_append]
  rw [mismatchFile, happend, hnone, List.append_nil]
  rfl

/-- A setup that names a mismatch file takes the earlier ones out of use. -/
theorem mismatchFile_not_mem_current {last : Setup}
    (hdistinct : (files (actions ++ [.setUp last])).Nodup)
    (hname : last.mismatchFile ≠ "") {setup : Setup} (hsetup : setup ∈ setups actions) :
    setup.mismatchFile ∉ current (actions ++ [.setUp last]) := by
  intro hmem
  rw [mem_current_iff, logFile_append_setUp, mismatchFile_append_setUp,
    if_neg hname] at hmem
  have hearlier := mismatchFile_mem_files_of_mem hsetup hmem.right
  rw [files_append_setUp, List.nodup_append] at hdistinct
  exact hdistinct.right.right _ hearlier _ (Setup.mem_files_iff.mpr hmem) rfl

end Action

namespace State

/-!
## One record
-/

namespace Follows

variable {actions : List Action} {state : State} (h : Follows actions state)
  (hdistinct : (Action.files actions).Nodup) (hname : Action.mismatchFile actions ≠ "")

include h hdistinct hname

theorem filter_writers_mismatchFile (record : Record) {handle : Nat}
    (hopened : state.journal.opened[handle]? = some (Action.mismatchFile actions)) :
    (state.writers record).filter (·.sink = .file handle) =
      if state.Under Registry.mismatchPath record ∧ Level.warning ≤ record.level then
        [{ sink := .file handle, level := Level.warning, layout := .messageOnly }]
      else [] := by
  have hlog : state.journal.opened[handle]? ≠ some (Action.logFile actions) := by
    rw [hopened]
    exact fun heq => Action.current_logFile_ne_mismatchFile hdistinct hname
      (Option.some_inj.mp heq).symm
  by_cases hunder : state.Under Registry.mismatchPath record
  · rcases Action.exists_last_of_mismatchFile_ne hname with ⟨last, hlast⟩
    have hpackage : state.Under Registry.packagePath record :=
      Registry.under_packagePath hunder
    rcases h.exists_filter_writers_eq hlast hpackage (.file handle) with
      ⟨own, hown, hwriters⟩
    have hnone : own.filter (·.sink = .file handle) = [] := by
      refine hown.filter_eq_nil fun other hother heq => ?_
      cases heq
      rw [Action.logFile, hlast] at hlog
      exact hlog hother
    have hmismatch := h.mismatch.handlers.filter_eq_self
      (h.opened_eq ▸ hdistinct) hname hopened
    -- the level of the mismatch logger comes before that of the package
    have henabled : state.isEnabled record = true <-> Level.warning ≤ record.level := by
      rw [h.isEnabled_iff hlast hpackage, if_pos ⟨hunder, hname⟩]
      exact and_iff_right_of_imp fun hle => Int.lt_of_lt_of_le (by decide) hle
    rw [hwriters, hmismatch, hnone]
    by_cases hlevel : Level.warning ≤ record.level
    · simp [hunder, hlevel, henabled, consoleHandler, listenerHandler]
    · simp [hlevel, henabled]
  · rw [if_neg (fun hboth => hunder hboth.left)]
    apply List.filter_eq_nil_iff.mpr
    intro handler hmem hsink
    rcases h.opened_of_mem_writers hmem (of_decide_eq_true hsink) with
      ⟨heq, -⟩ | ⟨hmismatch, -⟩
    · exact hlog heq
    · exact hunder hmismatch

theorem fileText?_emit_mismatchFile (record : Record) (time : String) :
    (state.emit record).journal.fileText? time (Action.mismatchFile actions) =
      (state.journal.fileText? time (Action.mismatchFile actions)).map (· ++
        if state.Under Registry.mismatchPath record ∧ Level.warning ≤ record.level then
          record.message ++ "\n"
        else "") := by
  rcases h.exists_handle_of_mem (Action.mismatchFile_mem_files hname) with
    ⟨handle, hopened⟩
  rw [h.fileText?_emit hdistinct time hopened,
    h.filter_writers_mismatchFile hdistinct hname record hopened]
  congr 1
  funext text
  split <;> simp [Layout.line]

end Follows

/-!
## Any history
-/

/-- The records of a history that belong into the mismatch file. -/
def reported (state : State) : List Action -> List Record
  | [] => []
  | .setUp setup :: more => (state.setUp setup).reported more
  | .emit record :: more =>
      let others := (state.emit record).reported more
      if state.Under Registry.mismatchPath record ∧ Level.warning ≤ record.level then
        record :: others
      else others

theorem isPrefix_of_mem_reported {state : State} {actions : List Action}
    {record : Record} (h : record ∈ state.reported actions) :
    Registry.mismatchPath <+: record.logger := by
  fun_induction reported state actions with
  | case1 => cases h
  | case2 state setup more ih => exact ih h
  | case3 state first more others hreported ih =>
      rcases List.mem_cons.mp h with heq | hmem
      · rw [heq]
        exact Registry.Under.isPrefix hreported.left
      · exact ih hmem
  | case4 state first more others hreported ih => exact ih h

/-- All mismatches of a check belong into the file. -/
theorem reported_mismatches (state : State) (found : List (Nearest.Mismatch Float)) :
    state.reported ((found.map Record.mismatch).map .emit) =
      found.map Record.mismatch := by
  induction found generalizing state with
  | nil => rfl
  | cons m rest ih =>
      have hunder : state.Under Registry.mismatchPath (Record.mismatch m) :=
        Registry.under_self _ _
      rw [List.map_cons, List.map_cons, reported, if_pos ⟨hunder, Int.le_refl _⟩, ih]

theorem not_under_initialized (state : State) :
    ¬ state.Under Registry.mismatchPath initialized :=
  fun hunder => absurd (Registry.Under.isPrefix hunder) (by decide)

namespace Follows

variable {actions : List Action} {state : State} (h : Follows actions state)

include h

theorem fileText?_setUp_mismatchFile {setup : Setup}
    (hdistinct : (Action.files (actions ++ [.setUp setup])).Nodup)
    (hname : Action.mismatchFile actions ≠ "") (hkept : setup.mismatchFile = "")
    (time : String) :
    (state.setUp setup).journal.fileText? time (Action.mismatchFile actions) =
      state.journal.fileText? time (Action.mismatchFile actions) := by
  have hsame : Action.mismatchFile (actions ++ [.setUp setup]) =
      Action.mismatchFile actions := by
    rw [Action.mismatchFile_append_setUp, if_pos hkept]
  have hemit := (h.configure setup).fileText?_emit_mismatchFile hdistinct
    (hsame ▸ hname) initialized time
  rw [if_neg (fun hboth => not_under_initialized _ hboth.left), hsame,
    h.fileText?_configure hdistinct (Action.mismatchFile_mem_files hname)] at hemit
  refine hemit.trans ?_
  simp

/-- The mismatch file gets the reported records, whatever else happens, as long
as no other mismatch file is named. -/
theorem fileText?_actAll_mismatchFile (more : List Action)
    (hdistinct : (Action.files (actions ++ more)).Nodup)
    (hname : Action.mismatchFile actions ≠ "")
    (hkept : forall setup, setup ∈ Action.setups more -> setup.mismatchFile = "")
    (time : String) :
    (state.actAll more).journal.fileText? time (Action.mismatchFile actions) =
      (state.journal.fileText? time (Action.mismatchFile actions)).map (· ++
        String.join ((state.reported more).map fun record => record.message ++ "\n")) := by
  -- a setup moves from the rest of the history to its beginning
  induction more generalizing actions state with
  | nil => simp [actAll, reported]
  | cons action more ih =>
      cases action with
      | setUp setup =>
          have hsetup : setup.mismatchFile = "" := hkept setup List.mem_cons_self
          have hsame : Action.mismatchFile (actions ++ [.setUp setup]) =
              Action.mismatchFile actions := by
            rw [Action.mismatchFile_append_setUp, if_pos hsetup]
          rw [List.append_cons] at hdistinct
          have hfirst : (Action.files (actions ++ [.setUp setup])).Nodup := by
            rw [Action.files_append] at hdistinct
            exact (List.nodup_append.mp hdistinct).left
          have hrest := ih (h.setUp setup) hdistinct (hsame ▸ hname)
            fun other hmem => hkept other (List.mem_cons_of_mem _ hmem)
          rw [hsame, h.fileText?_setUp_mismatchFile hfirst hname hsetup time] at hrest
          exact hrest
      | emit record =>
          have hmore : (Action.files (actions ++ more)).Nodup := by
            rw [Action.files_append] at hdistinct ⊢
            exact hdistinct
          have hfirst : (Action.files actions).Nodup := by
            rw [Action.files_append] at hmore
            exact (List.nodup_append.mp hmore).left
          have hrest := ih (h.emit record) hmore hname hkept
          rw [h.fileText?_emit_mismatchFile hfirst hname, Option.map_map] at hrest
          refine hrest.trans ?_
          rw [reported]
          congr 1
          funext text
          split <;> simp [String.append_assoc]

/-- A mismatch file starts empty. -/
theorem fileText?_setUp_named {setup : Setup}
    (hdistinct : (Action.files (actions ++ [.setUp setup])).Nodup)
    (hname : setup.mismatchFile ≠ "") (time : String) :
    (state.setUp setup).journal.fileText? time setup.mismatchFile = some "" := by
  have hsame : Action.mismatchFile (actions ++ [.setUp setup]) = setup.mismatchFile := by
    rw [Action.mismatchFile_append_setUp, if_neg hname]
  have hconfigure := h.configure setup
  have hmem : setup.mismatchFile ∈ setup.files :=
    Setup.mem_files_iff.mpr ⟨.inr rfl, hname⟩
  rcases List.getElem?_of_mem hmem with ⟨index, hindex⟩
  have hopened : (state.configure setup).journal.opened[
      state.journal.opened.length + index]? = some setup.mismatchFile := by
    rw [opened_configure, List.getElem?_append_right (Nat.le_add_right _ _),
      Nat.add_sub_cancel_left]
    exact hindex
  have hempty : (state.configure setup).journal.fileText? time setup.mismatchFile =
      some "" := by
    rw [hconfigure.fileText?_eq hdistinct time hopened, Journal.linesOf,
      writtenTo_configure]
    exact congrArg some (h.ordered.linesOf_eq_empty time (Nat.le_add_right _ _))
  have hemit := hconfigure.fileText?_emit_mismatchFile hdistinct (hsame ▸ hname)
    initialized time
  rw [if_neg (fun hboth => not_under_initialized _ hboth.left), hsame, hempty] at hemit
  exact hemit

/-- A check adds its mismatches, whether or not the caller collects them. -/
theorem fileText?_review (hdistinct : (Action.files actions).Nodup)
    (hname : Action.mismatchFile actions ≠ "")
    (collected : Option (List (Nearest.Mismatch Float)))
    (outcome : Nearest.Outcome Float) (time : String) :
    (state.review collected outcome).state.journal.fileText? time
        (Action.mismatchFile actions) =
      (state.journal.fileText? time (Action.mismatchFile actions)).map (· ++
        String.join (outcome.recorded.map fun m => m.text ++ "\n")) := by
  let found := outcome.recorded.map Record.mismatch
  have hnone : forall setup, setup ∈ Action.setups (found.map .emit) ->
      setup.mismatchFile = "" := by
    intro setup hmem
    rw [Action.setups_map_emit] at hmem
    cases hmem
  have hrun := h.fileText?_actAll_mismatchFile (found.map .emit)
    (by rwa [Action.files_append_map_emit]) hname hnone time
  rw [← emitAll_eq_actAll, reported_mismatches, List.map_map] at hrun
  exact hrun

end Follows

/-- Once a mismatch file is named, and until another one is, it holds the
mismatches of all checks and nothing else, and earlier ones get nothing more. -/
theorem mismatch_log_complete_and_exclusive (before : List Action) (last : Setup)
    (since : List Action) (hname : last.mismatchFile ≠ "")
    (hkept : forall setup, setup ∈ Action.setups since -> setup.mismatchFile = "")
    (hdistinct : (Action.files (before ++ [.setUp last] ++ since)).Nodup)
    (time : String) :
    let start := State.initial.actAll (before ++ [.setUp last])
    let state := start.actAll since
    let text := String.join ((start.reported since).map fun record =>
      record.message ++ "\n")
    state.journal.fileText? time last.mismatchFile = some text ∧
      (forall record, record ∈ start.reported since ->
        Registry.mismatchPath <+: record.logger) ∧
      (forall (maxSize : Int) (maxDistance maxError : Float)
          (expected actual : List (Nearest.Item Float))
          (collected : Option (List (Nearest.Mismatch Float))),
        let outcome := Nearest.checkResults maxSize maxDistance maxError expected actual
        let review := state.review collected outcome
        review.state.journal.fileText? time last.mismatchFile =
            some (text ++ String.join (outcome.recorded.map fun m => m.text ++ "\n")) ∧
          review.collected = collected.map (· ++ outcome.recorded)) ∧
      forall setup, setup ∈ Action.setups before -> setup.mismatchFile ≠ "" ->
        state.journal.fileText? time setup.mismatchFile =
          (State.initial.actAll before).journal.fileText? time setup.mismatchFile := by
  intro start state text
  have hstart : Follows (before ++ [.setUp last]) start := follows _
  have hstate : Follows (before ++ [.setUp last] ++ since) state := by
    have hall := follows (before ++ [.setUp last] ++ since)
    rwa [actAll_append] at hall
  have hsetUp : start = (State.initial.actAll before).setUp last := actAll_append _ _ _
  have hnamed : Action.mismatchFile (before ++ [.setUp last]) = last.mismatchFile := by
    rw [Action.mismatchFile_append_setUp, if_neg hname]
  have hnow : Action.mismatchFile (before ++ [.setUp last] ++ since) =
      last.mismatchFile :=
    (Action.mismatchFile_append_of_forall hkept).trans hnamed
  have hfirst : (Action.files (before ++ [.setUp last])).Nodup := by
    rw [Action.files_append] at hdistinct
    exact (List.nodup_append.mp hdistinct).left
  have htext : state.journal.fileText? time last.mismatchFile = some text := by
    have hrun := hstart.fileText?_actAll_mismatchFile since hdistinct (hnamed ▸ hname)
      hkept time
    have hempty : start.journal.fileText? time last.mismatchFile = some "" := by
      rw [hsetUp]
      exact (follows before).fileText?_setUp_named hfirst hname time
    rw [hnamed, hempty] at hrun
    exact hrun.trans (congrArg some String.empty_append)
  refine ⟨htext, fun record => isPrefix_of_mem_reported, ?_, ?_⟩
  · intro maxSize maxDistance maxError expected actual collected outcome review
    refine ⟨?_, rfl⟩
    have hreview := hstate.fileText?_review hdistinct (hnow ▸ hname) collected outcome time
    rw [hnow, htext] at hreview
    exact hreview
  · intro setup hsetup hearlier
    have hretired := fileText?_actAll_of_setUp before since hdistinct
      (Action.mismatchFile_mem_files_of_mem hsetup hearlier)
      (Action.mismatchFile_not_mem_current hfirst hname hsetup) time
    rwa [actAll_append] at hretired

/-- Two mismatch files, then a quieter setup without one, a warning of another
logger and a mismatch. -/
theorem mismatch_log_after_quieter_setup :
    let first : Setup :=
      { level := Level.info, propagate := true
        logFile := "", mismatchFile := "first.log" }
    let second : Setup :=
      { level := 40, propagate := false, logFile := "", mismatchFile := "second.log" }
    let quiet : Setup :=
      { level := 50, propagate := true, logFile := "quiet.log", mismatchFile := "" }
    let warned : Record :=
      { logger := ["spheretest", "fractal"]
        level := Level.warning
        message := "Setting out of range" }
    let missing : Nearest.Mismatch Float :=
      { label := "Missing", kind := .notFound, item := { distance := 0.2, id := .text "b" } }
    let since : List Action :=
      [.setUp quiet, .emit warned, .emit (Record.mismatch missing)]
    let start := State.initial.actAll [.setUp first, .setUp second]
    (start.actAll since).journal.fileText? "12:00:00" "second.log" =
        some (missing.text ++ "\n") ∧
      (start.actAll since).journal.fileText? "12:00:00" "first.log" =
        (State.initial.actAll [.setUp first]).journal.fileText? "12:00:00" "first.log" := by
  intro first second quiet warned missing since start
  have hdistinct :
      (Action.files ([.setUp first] ++ [.setUp second] ++ since)).Nodup := by
    decide
  have hkept : forall setup, setup ∈ Action.setups since -> setup.mismatchFile = "" := by
    intro setup hmem
    rw [List.mem_singleton.mp hmem]
  rcases mismatch_log_complete_and_exclusive [.setUp first] second since (by decide) hkept
    hdistinct "12:00:00" with ⟨htext, _, _, hearlier⟩
  have hwarned (state : State) : ¬ state.Under Registry.mismatchPath warned :=
    fun hunder => absurd (Registry.Under.isPrefix hunder) (by decide)
  have hreported : start.reported since = [Record.mismatch missing] := by
    rw [reported, reported, if_neg fun hboth => hwarned _ hboth.left]
    exact reported_mismatches _ [missing]
  have hmessage : String.join ([Record.mismatch missing].map fun record =>
      record.message ++ "\n") = missing.text ++ "\n" := by
    rw [List.map_singleton, String.join_cons, String.join_nil, String.append_empty]
    rfl
  refine ⟨htext.trans ?_, hearlier first (by decide) (by decide)⟩
  rw [← hmessage, ← hreported]
  rfl

end State

end Logging

end SphereFixtures
