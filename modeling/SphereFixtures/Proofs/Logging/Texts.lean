import SphereFixtures.Proofs.Logging.History

/-!
# Texts of files over a history

All files of a history are distinct, so each of them holds the lines of its own
handle.  A record adds to the files that are in use; a file that a setup takes
out of use keeps its text from then on.
-/

namespace SphereFixtures

namespace Logging

namespace State

/-!
## Files in use
-/

theorem linesOf_emit (state : State) (record : Record) (time : String) (handle : Nat) :
    (state.emit record).journal.linesOf time handle =
      state.journal.linesOf time handle ++
        String.join (((state.writers record).filter (·.sink = .file handle)).map
          fun handler => handler.layout.line time record ++ "\n") := by
  rw [Journal.linesOf, writtenTo_emit, List.map_append, String.join_append, List.map_map]
  rfl

namespace Follows

variable {actions : List Action} {state : State} (h : Follows actions state)
  {file : String}

include h

theorem exists_handle_of_mem (hfile : file ∈ Action.files actions) :
    exists handle : Nat, state.journal.opened[handle]? = some file := by
  rw [← h.opened_eq] at hfile
  exact List.getElem?_of_mem hfile

section Distinct

variable (hdistinct : (Action.files actions).Nodup) (time : String) {handle : Nat}
  (hopened : state.journal.opened[handle]? = some file)

include hdistinct hopened

theorem fileText?_eq :
    state.journal.fileText? time file = some (state.journal.linesOf time handle) := by
  rw [← h.opened_eq] at hdistinct
  exact h.ordered.fileText?_eq time hdistinct hopened

/-- A record adds the lines of the handlers of a file to its text. -/
theorem fileText?_emit (record : Record) :
    (state.emit record).journal.fileText? time file =
      (state.journal.fileText? time file).map (· ++
        String.join (((state.writers record).filter (·.sink = .file handle)).map
          fun handler => handler.layout.line time record ++ "\n")) := by
  have hnext := (h.emit record).fileText?_eq hdistinct time
    (show (state.emit record).journal.opened[handle]? = some file by rwa [opened_emit])
  rw [hnext, h.fileText?_eq hdistinct time hopened, linesOf_emit]
  rfl

theorem fileText?_emit_of_forall_ne {record : Record}
    (hwriters : forall handler, handler ∈ state.writers record ->
      handler.sink ≠ .file handle) :
    (state.emit record).journal.fileText? time file =
      state.journal.fileText? time file := by
  have hnone : (state.writers record).filter (·.sink = .file handle) = [] := by
    simpa using hwriters
  rw [h.fileText?_emit hdistinct time hopened, hnone]
  simp

end Distinct

/-- A record leaves the files alone that are not in use any more. -/
theorem fileText?_emit_of_not_mem (hdistinct : (Action.files actions).Nodup)
    (hfile : file ∈ Action.files actions) (hcurrent : file ∉ Action.current actions)
    (record : Record) (time : String) :
    (state.emit record).journal.fileText? time file =
      state.journal.fileText? time file := by
  rcases h.exists_handle_of_mem hfile with ⟨handle, hopened⟩
  refine h.fileText?_emit_of_forall_ne hdistinct time hopened ?_
  intro handler hmem hsink
  apply hcurrent
  rw [Action.mem_current_iff]
  rcases h.opened_of_mem_writers hmem hsink with ⟨hlog, hname⟩ | ⟨-, hmismatch, hname⟩
  · rw [hopened] at hlog
    cases hlog
    exact ⟨.inl rfl, hname⟩
  · rw [hopened] at hmismatch
    cases hmismatch
    exact ⟨.inr rfl, hname⟩

theorem fileText?_configure {setup : Setup}
    (hdistinct : (Action.files (actions ++ [.setUp setup])).Nodup)
    (hfile : file ∈ Action.files actions) (time : String) :
    (state.configure setup).journal.fileText? time file =
      state.journal.fileText? time file := by
  rcases h.exists_handle_of_mem hfile with ⟨handle, hopened⟩
  have hlater : (state.configure setup).journal.opened[handle]? = some file := by
    rw [opened_configure,
      List.getElem?_append_left (List.getElem?_eq_some_iff.mp hopened).choose]
    exact hopened
  have hbefore : (Action.files actions).Nodup := by
    rw [Action.files_append_setUp] at hdistinct
    exact (List.nodup_append.mp hdistinct).left
  rw [(h.configure setup).fileText?_eq hdistinct time hlater,
    h.fileText?_eq hbefore time hopened, Journal.linesOf, writtenTo_configure]
  rfl

/-- A setup leaves the files alone that it takes out of use. -/
theorem fileText?_setUp_of_not_mem {setup : Setup}
    (hdistinct : (Action.files (actions ++ [.setUp setup])).Nodup)
    (hfile : file ∈ Action.files actions)
    (hcurrent : file ∉ Action.current (actions ++ [.setUp setup])) (time : String) :
    (state.setUp setup).journal.fileText? time file =
      state.journal.fileText? time file := by
  have hlater : file ∈ Action.files (actions ++ [.setUp setup]) := by
    rw [Action.files_append_setUp]
    exact List.mem_append_left _ hfile
  rw [← h.fileText?_configure hdistinct hfile time]
  exact (h.configure setup).fileText?_emit_of_not_mem hdistinct hlater hcurrent
    initialized time

end Follows

/-- A file that is out of use is never written to again. -/
theorem fileText?_actAll_of_not_mem (before more : List Action) {file : String}
    (hdistinct : (Action.files (before ++ more)).Nodup)
    (hfile : file ∈ Action.files before) (hcurrent : file ∉ Action.current before)
    (time : String) :
    (State.initial.actAll (before ++ more)).journal.fileText? time file =
        (State.initial.actAll before).journal.fileText? time file ∧
      file ∉ Action.current (before ++ more) := by
  induction more using List.reverseRecOn with
  | nil =>
      rw [List.append_nil]
      exact ⟨rfl, hcurrent⟩
  | append_singleton more action ih =>
      rw [← List.append_assoc] at hdistinct ⊢
      have hbefore : (Action.files (before ++ more)).Nodup := by
        rw [Action.files_append] at hdistinct
        exact (List.nodup_append.mp hdistinct).left
      have hmore : file ∈ Action.files (before ++ more) := by
        rw [Action.files_append]
        exact List.mem_append_left _ hfile
      rcases ih hbefore with ⟨htext, hout⟩
      rw [actAll_append, ← htext]
      cases action with
      | emit record =>
          rw [Action.current_append_emit]
          exact ⟨(follows (before ++ more)).fileText?_emit_of_not_mem hbefore hmore hout
            record time, hout⟩
      | setUp setup =>
          have hnext : file ∉ Action.current (before ++ more ++ [.setUp setup]) := by
            intro hmem
            rcases Action.mem_current_append_setUp hmem with hnew | ⟨heq, hname⟩
            · rw [Action.files_append_setUp] at hdistinct
              exact (List.nodup_append.mp hdistinct).right.right file hmore file hnew rfl
            · exact hout (Action.mem_current_iff.mpr ⟨.inr heq, hname⟩)
          exact ⟨(follows (before ++ more)).fileText?_setUp_of_not_mem hdistinct hmore
            hnext time, hnext⟩

/-- A file that a setup takes out of use keeps the text that it had before. -/
theorem fileText?_actAll_of_setUp (before more : List Action) {last : Setup}
    {file : String}
    (hdistinct : (Action.files (before ++ [.setUp last] ++ more)).Nodup)
    (hfile : file ∈ Action.files before)
    (hcurrent : file ∉ Action.current (before ++ [.setUp last])) (time : String) :
    (State.initial.actAll (before ++ [.setUp last] ++ more)).journal.fileText? time file =
      (State.initial.actAll before).journal.fileText? time file := by
  have hlater : file ∈ Action.files (before ++ [.setUp last]) := by
    rw [Action.files_append]
    exact List.mem_append_left _ hfile
  have hfirst : (Action.files (before ++ [.setUp last])).Nodup := by
    rw [Action.files_append] at hdistinct
    exact (List.nodup_append.mp hdistinct).left
  rw [(fileText?_actAll_of_not_mem _ more hdistinct hlater hcurrent time).left,
    actAll_append]
  exact (follows before).fileText?_setUp_of_not_mem hfirst hfile hcurrent time

end State

end Logging

end SphereFixtures
