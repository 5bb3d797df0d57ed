import SphereFixtures.Logging.Journal

/-!
# Contents of files

A file that is opened once holds exactly the lines that were written to its
handle, in their order.  A handle writes at its own position, which is the end of
the file as long as no other handle writes to that file.
-/

namespace SphereFixtures

namespace Logging

namespace Journal

/-!
## Files and lines of a journal
-/

/-- The files that were opened, in order; the handle of a file is its position. -/
def opened (journal : Journal) : List String :=
  journal.filterMap fun event =>
    match event with
    | .opened file => some file
    | .written _ _ => none

theorem opened_append (journal events : Journal) :
    opened (journal ++ events) = journal.opened ++ opened events :=
  List.filterMap_append

theorem opened_append_written (journal : Journal) (handler : Handler)
    (record : Record) :
    opened (journal ++ [.written handler record]) = journal.opened := by
  simp [opened]

theorem handles_eq_length (journal : Journal) :
    journal.handles = journal.opened.length := by
  induction journal with
  | nil => rfl
  | cons event rest ih =>
      cases event with
      | opened file => simpa [handles, opened] using ih
      | written handler record => simpa [handles, opened] using ih

theorem writtenTo_append (journal events : Journal) (sink : Sink) :
    writtenTo (journal ++ events) sink =
      journal.writtenTo sink ++ writtenTo events sink :=
  List.filterMap_append

theorem writtenTo_opened (file : String) (sink : Sink) :
    writtenTo [.opened file] sink = [] := rfl

theorem writtenTo_written (handler : Handler) (record : Record) (sink : Sink) :
    writtenTo [.written handler record] sink =
      if handler.sink = sink then [(handler.layout, record)] else [] := by
  simp only [writtenTo, List.filterMap_cons, List.filterMap_nil]
  split <;> rename_i h <;> split at h <;> simp_all

/-- The lines that were written to a handle. -/
def linesOf (journal : Journal) (time : String) (handle : Nat) : String :=
  String.join ((journal.writtenTo (.file handle)).map fun (layout, record) =>
    layout.line time record ++ "\n")

theorem linesOf_append_opened (journal : Journal) (time file : String)
    (handle : Nat) :
    linesOf (journal ++ [.opened file]) time handle = journal.linesOf time handle := by
  rw [linesOf, writtenTo_append, writtenTo_opened, List.append_nil]
  rfl

theorem linesOf_append_written (journal : Journal) (time : String) (handle : Nat)
    (handler : Handler) (record : Record) :
    linesOf (journal ++ [.written handler record]) time handle =
      journal.linesOf time handle ++
        if handler.sink = .file handle then handler.layout.line time record ++ "\n"
        else "" := by
  rw [linesOf, writtenTo_append, writtenTo_written, List.map_append,
    String.join_append]
  split
  · simp [linesOf]
  · simp [linesOf]

/-!
## Disks
-/

namespace Disk

theorem lookup_put_self (disk : Disk) (file : String) (bytes : Array UInt8) :
    (disk.put file bytes).files.lookup file = some bytes := by
  rw [put, List.lookup_cons_self]

theorem lookup_filter_of_ne {file other : String} (hne : other ≠ file)
    (files : List (String × Array UInt8)) :
    (files.filter fun (name, _) => name ≠ file).lookup other =
      files.lookup other := by
  induction files with
  | nil => rfl
  | cons entry rest ih =>
      rcases entry with ⟨name, bytes⟩
      by_cases hname : name = file
      · have hother : (other == name) = false := by
          rw [hname]
          exact beq_false_of_ne hne
        rw [List.filter_cons_of_neg (by simpa using hname), ih, List.lookup_cons,
          hother]
      · rw [List.filter_cons_of_pos (by simpa using hname), List.lookup_cons,
          List.lookup_cons, ih]

theorem lookup_put_of_ne {disk : Disk} {file other : String} {bytes : Array UInt8}
    (hne : other ≠ file) :
    (disk.put file bytes).files.lookup other = disk.files.lookup other := by
  have hother : (other == file) = false := beq_false_of_ne hne
  rw [put, List.lookup_cons, hother]
  exact lookup_filter_of_ne hne disk.files

/-- Writing where a file ends appends to it. -/
theorem overwrite_end (old bytes : Array UInt8) :
    overwrite old old.size bytes = old ++ bytes := by
  have hrest : old.extract (old.size + bytes.size) = #[] :=
    Array.extract_eq_empty_of_le (by simp)
  simp [overwrite, hrest]

/-- Whether a file holds a text and a handle writes behind it. -/
structure Holds (disk : Disk) (handle : Nat) (file text : String) : Prop where
  handle_eq : disk.handles[handle]? = some (file, text.toUTF8.data.size)
  content_eq : disk.files.lookup file = some text.toUTF8.data

theorem Holds.openFile {disk : Disk} {handle : Nat} {file text other : String}
    (h : disk.Holds handle file text) (hne : file ≠ other) :
    (disk.openFile other).Holds handle file text := by
  have hlt : handle < disk.handles.length := by
    exact (List.getElem?_eq_some_iff.mp h.handle_eq).choose
  constructor
  · show (disk.handles ++ [(other, 0)])[handle]? = _
    rw [List.getElem?_append_left hlt]
    exact h.handle_eq
  · exact (lookup_put_of_ne hne).trans h.content_eq

theorem holds_openFile (disk : Disk) (file : String) :
    (disk.openFile file).Holds disk.handles.length file "" := by
  constructor
  · show (disk.handles ++ [(file, 0)])[disk.handles.length]? = _
    rw [List.getElem?_concat_length]
    rfl
  · exact lookup_put_self disk file #[]

/-- A handle appends to its file. -/
theorem Holds.write_self {disk : Disk} {handle : Nat} {file text : String}
    (h : disk.Holds handle file text) (more : String) :
    (disk.write handle more.toUTF8.data).Holds handle file (text ++ more) := by
  have hlt : handle < disk.handles.length := by
    exact (List.getElem?_eq_some_iff.mp h.handle_eq).choose
  have happend :
      (text ++ more).toUTF8.data = text.toUTF8.data ++ more.toUTF8.data := by
    simp
  have hcontent : disk.content file = text.toUTF8.data := by
    rw [content, h.content_eq]
    rfl
  rw [write, h.handle_eq]
  constructor
  · show (disk.handles.set handle _)[handle]? = _
    rw [List.getElem?_set_self hlt, happend, Array.size_append]
  · show (disk.put file _).files.lookup file = _
    rw [lookup_put_self, hcontent, overwrite_end, happend]

theorem Holds.write_of_ne {disk : Disk} {handle other : Nat} {file text : String}
    (h : disk.Holds handle file text) (hne : other ≠ handle)
    (hfile : forall name position,
      disk.handles[other]? = some (name, position) -> name ≠ file)
    (bytes : Array UInt8) : (disk.write other bytes).Holds handle file text := by
  rw [write]
  split
  · exact h
  · next name position hother =>
      constructor
      · show (disk.handles.set other _)[handle]? = _
        rw [List.getElem?_set_ne hne]
        exact h.handle_eq
      · exact (lookup_put_of_ne (hfile name position hother).symm).trans h.content_eq

end Disk

/-!
## Files of a journal
-/

/-- Journals in which a handle is written to only after its file was opened. -/
inductive Ordered : Journal -> Prop where
  | nil : Ordered []
  | opened {journal : Journal} (h : Ordered journal) (file : String) :
      Ordered (journal ++ [.opened file])
  | written {journal : Journal} (h : Ordered journal) {handler : Handler}
      {record : Record}
      (hhandle : forall handle, handler.sink = .file handle ->
        handle < journal.opened.length) :
      Ordered (journal ++ [.written handler record])

namespace Ordered

variable {journal : Journal} (h : Ordered journal)

include h

theorem linesOf_eq_empty (time : String) {handle : Nat} (hle : journal.opened.length ≤ handle) :
    journal.linesOf time handle = "" := by
  induction h with
  | nil => rfl
  | opened h file ih =>
      rw [opened_append, List.length_append] at hle
      rw [linesOf_append_opened]
      exact ih (by omega)
  | @written journal h handler record hhandle ih =>
      rw [opened_append_written] at hle
      have hne : handler.sink ≠ .file handle := by
        intro heq
        have hlt := hhandle handle heq
        omega
      rw [linesOf_append_written, ih hle, if_neg hne]
      rfl

theorem append_written {handlers : List Handler} {record : Record}
    (hhandles : forall handler, handler ∈ handlers ->
      forall handle, handler.sink = .file handle -> handle < journal.opened.length) :
    Ordered (journal ++ handlers.map fun handler => .written handler record) := by
  induction handlers generalizing journal with
  | nil => simpa using h
  | cons handler rest ih =>
      have hfirst : Ordered (journal ++ [.written handler record]) :=
        h.written (hhandles handler List.mem_cons_self)
      rw [List.map_cons, List.append_cons]
      apply ih hfirst
      intro other hmem handle hsink
      rw [opened_append_written]
      exact hhandles other (List.mem_cons_of_mem handler hmem) handle hsink

end Ordered

/-- Whether every file of a disk holds the lines of its handle. -/
structure Mirrors (journal : Journal) (time : String) (disk : Disk) : Prop where
  length_eq : disk.handles.length = journal.opened.length
  holds : forall handle file, journal.opened[handle]? = some file ->
    disk.Holds handle file (journal.linesOf time handle)

namespace Mirrors

variable {journal : Journal} {time : String} {disk : Disk}
  (h : Mirrors journal time disk)

include h

theorem openFile {file : String} (hnew : file ∉ journal.opened)
    (hempty : journal.linesOf time journal.opened.length = "") :
    Mirrors (journal ++ [.opened file]) time (disk.openFile file) := by
  have hopened : Journal.opened (journal ++ [.opened file]) =
      journal.opened ++ [file] := opened_append journal [.opened file]
  constructor
  · show (disk.handles ++ [(file, 0)]).length = _
    rw [hopened, List.length_append, List.length_append, h.length_eq]
    rfl
  · intro handle name hname
    rw [linesOf_append_opened]
    rw [hopened] at hname
    rcases Nat.lt_or_ge handle journal.opened.length with hlt | hge
    · rw [List.getElem?_append_left hlt] at hname
      apply (h.holds handle name hname).openFile
      intro heq
      rw [← heq] at hnew
      exact hnew (List.mem_of_getElem? hname)
    · have hlast : handle = journal.opened.length := by
        have hlt := (List.getElem?_eq_some_iff.mp hname).choose
        rw [List.length_append, List.length_singleton] at hlt
        omega
      rw [hlast, List.getElem?_concat_length] at hname
      cases hname
      rw [hlast, hempty, ← h.length_eq]
      exact disk.holds_openFile file

/-- What goes elsewhere leaves the disk as it is. -/
theorem skip (handler : Handler) (record : Record)
    (hsink : forall handle, handler.sink ≠ .file handle) :
    Mirrors (journal ++ [.written handler record]) time
      (disk.after time (.written handler record)) := by
  have hafter : disk.after time (.written handler record) = disk := by
    rw [Disk.after]
    split
    · next handle heq => exact absurd heq (hsink handle)
    · rfl
  rw [hafter]
  constructor
  · rw [opened_append_written]
    exact h.length_eq
  · intro handle file hfile
    rw [opened_append_written] at hfile
    rw [linesOf_append_written, if_neg (hsink handle), String.append_empty]
    exact h.holds handle file hfile

/-- No two handles have the same file. -/
theorem ne_of_handle_ne (hdistinct : journal.opened.Nodup) {handle other : Nat}
    {file name : String} {position : Nat}
    (hfile : journal.opened[handle]? = some file) (hne : other ≠ handle)
    (hother : disk.handles[other]? = some (name, position)) : name ≠ file := by
  have hlt : other < journal.opened.length := by
    rw [← h.length_eq]
    exact (List.getElem?_eq_some_iff.mp hother).choose
  have hname := List.getElem?_eq_getElem hlt
  rw [(h.holds other _ hname).handle_eq] at hother
  cases hother
  intro heq
  rw [heq, ← hfile] at hname
  exact hne ((List.getElem?_inj hlt hdistinct).mp hname)

theorem write (hdistinct : journal.opened.Nodup) (handler : Handler)
    (record : Record) :
    Mirrors (journal ++ [.written handler record]) time
      (disk.after time (.written handler record)) := by
  cases hsink : handler.sink with
  | file other =>
      have hafter : disk.after time (.written handler record) =
          disk.write other (handler.layout.line time record ++ "\n").toUTF8.data := by
        rw [Disk.after, hsink]
      rw [hafter]
      constructor
      · rw [opened_append_written, ← h.length_eq, Disk.write]
        split
        · rfl
        · exact List.length_set
      · intro handle file hfile
        rw [opened_append_written] at hfile
        rw [linesOf_append_written, hsink]
        by_cases heq : other = handle
        · rw [heq, if_pos rfl]
          exact (h.holds handle file hfile).write_self _
        · have hsinks : Sink.file other ≠ .file handle := by
            intro hsame
            cases hsame
            exact heq rfl
          rw [if_neg hsinks, String.append_empty]
          apply (h.holds handle file hfile).write_of_ne heq
          intro name position hother
          exact h.ne_of_handle_ne hdistinct hfile heq hother
  | console => exact h.skip handler record (by simp [hsink])
  | listener => exact h.skip handler record (by simp [hsink])

end Mirrors

theorem disk_append (journal : Journal) (time : String) (event : Event) :
    disk (journal ++ [event]) time = (journal.disk time).after time event := by
  rw [disk, List.foldl_append]
  rfl

theorem Ordered.mirrors {journal : Journal} (h : journal.Ordered) (time : String)
    (hdistinct : journal.opened.Nodup) : Mirrors journal time (journal.disk time) := by
  induction h with
  | nil => exact ⟨rfl, fun handle file hfile => by simp [Journal.opened] at hfile⟩
  | @opened journal h file ih =>
      rw [opened_append, List.nodup_append] at hdistinct
      have hnew : file ∉ journal.opened := fun hmem =>
        hdistinct.right.right file hmem file List.mem_cons_self rfl
      rw [disk_append]
      exact (ih hdistinct.left).openFile hnew (h.linesOf_eq_empty time (Nat.le_refl _))
  | @written journal h handler record hhandle ih =>
      rw [opened_append_written] at hdistinct
      rw [disk_append]
      exact (ih hdistinct).write hdistinct handler record

/-- A file that was opened once has exactly the lines of its handle. -/
theorem Ordered.fileText?_eq {journal : Journal} (h : journal.Ordered) (time : String)
    (hdistinct : journal.opened.Nodup) {handle : Nat} {file : String}
    (hfile : journal.opened[handle]? = some file) :
    journal.fileText? time file = some (journal.linesOf time handle) := by
  have hcontent := ((h.mirrors time hdistinct).holds handle file hfile).content_eq
  rw [fileText?, hcontent]
  show String.fromUTF8? (journal.linesOf time handle).toUTF8 = _
  exact dif_pos (journal.linesOf time handle).isValidUTF8

end Journal

end Logging

end SphereFixtures
