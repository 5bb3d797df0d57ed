import SphereFixtures.Logging.Registry

/-!
# What logging leaves behind

The journal lists the files that were opened and the records that handlers
wrote, in order.  The text of the console and the contents of a file are read
off the journal, with a time of day that full lines begin with.
-/

namespace SphereFixtures

namespace Logging

inductive Event where
  /-- A file is opened for writing, and loses what it held. -/
  | opened (file : String)
  | written (handler : Handler) (record : Record)
deriving DecidableEq, Repr

abbrev Journal := List Event

namespace Journal

/-- The number of files opened so far, which is the next handle. -/
def handles (journal : Journal) : Nat :=
  journal.countP fun event =>
    match event with
    | .opened _ => true
    | .written _ _ => false

/-- The records written to a sink, with their layouts. -/
def writtenTo (journal : Journal) (sink : Sink) : List (Layout × Record) :=
  journal.filterMap fun event =>
    match event with
    | .opened _ => none
    | .written handler record =>
        if handler.sink = sink then some (handler.layout, record) else none

def consoleLines (journal : Journal) (time : String) : List String :=
  (journal.writtenTo .console).map fun (layout, record) =>
    layout.line time record

def consoleText (journal : Journal) (time : String) : String :=
  String.join ((journal.consoleLines time).map (· ++ "\n"))

/-- The records that reached the listener at the root. -/
def heard (journal : Journal) : List Record :=
  (journal.writtenTo .listener).map Prod.snd

/-!
## Contents of files

Every handle writes at its own position, which opening the file again does not
move.
-/

/-- The files, and the file and the position of every handle. -/
structure Disk where
  files : List (String × Array UInt8)
  handles : List (String × Nat)

namespace Disk

def empty : Disk :=
  { files := [], handles := [] }

def content (disk : Disk) (file : String) : Array UInt8 :=
  (disk.files.lookup file).getD #[]

def put (disk : Disk) (file : String) (bytes : Array UInt8) : Disk :=
  { disk with
    files := (file, bytes) :: disk.files.filter fun (name, _) => name ≠ file }

/-- The bytes written at a position of a file, whose end is filled up with
zeros if it comes before. -/
def overwrite (old : Array UInt8) (position : Nat) (bytes : Array UInt8) :
    Array UInt8 :=
  old.take position ++ Array.replicate (position - old.size) 0 ++ bytes
    ++ old.drop (position + bytes.size)

def openFile (disk : Disk) (file : String) : Disk :=
  let disk := disk.put file #[]
  { disk with handles := disk.handles ++ [(file, 0)] }

def write (disk : Disk) (handle : Nat) (bytes : Array UInt8) : Disk :=
  match disk.handles[handle]? with
  | none => disk
  | some (file, position) =>
      let disk :=
        disk.put file (overwrite (disk.content file) position bytes)
      { disk with
        handles := disk.handles.set handle (file, position + bytes.size) }

def after (time : String) (disk : Disk) : Event -> Disk
  | .opened file => disk.openFile file
  | .written handler record =>
      match handler.sink with
      | .file handle =>
          disk.write handle
            (handler.layout.line time record ++ "\n").toUTF8.data
      | _ => disk

end Disk

def disk (journal : Journal) (time : String) : Disk :=
  journal.foldl (Disk.after time) Disk.empty

def fileText? (journal : Journal) (time file : String) : Option String := do
  String.fromUTF8? (ByteArray.mk (← (journal.disk time).files.lookup file))

def files (journal : Journal) (time : String) : List (String × String) :=
  (journal.disk time).files.map fun (file, bytes) =>
    (file, (String.fromUTF8? (ByteArray.mk bytes)).getD "")

end Journal

end Logging

end SphereFixtures
