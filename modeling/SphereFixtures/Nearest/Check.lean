import SphereFixtures.Nearest.Item

/-!
# Checking search results

A list of results is checked against a reference list: it has to be in order,
without repetitions, and it has to hold every reference item that is clearly
within its reach.  Comparing an answer with a brute-force list runs the check
in both directions, so that missing and extra items are both found.
-/

namespace SphereFixtures

namespace Nearest

/-!
## Mismatches
-/

inductive MismatchKind where
  | unsorted
  | duplicate
  | notFound
deriving DecidableEq, Repr

namespace MismatchKind

def text : MismatchKind -> String
  | .unsorted => "unsorted"
  | .duplicate => "duplicate"
  | .notFound => "not found"

end MismatchKind

structure Mismatch (α : Type) where
  label : String
  kind : MismatchKind
  item : Item α

namespace Mismatch

def text (m : Mismatch Float) : String :=
  m.label ++ " (" ++ m.kind.text ++ ") distance = "
    ++ Decimal.shortestText m.item.distance ++ ", id = " ++ m.item.id.display

end Mismatch

inductive CheckError where
  | notAKey (collection : Ident.Collection)
deriving DecidableEq, Repr

namespace CheckError

def message : CheckError -> String
  | .notAKey collection => "unhashable type: '" ++ collection.text ++ "'"

end CheckError

/-!
## One direction
-/

/-- How many items a list of results may hold, how far they reach, and the
tolerances of a check. -/
structure Bounds (α : Type) where
  maxSize : Int
  maxDistance : α
  maxError : α
  maxPruningError : α

variable {α : Type} [Scalar α]

def unsorted : List (Item α) -> List (Item α)
  | previous :: item :: rest =>
      if item.distance < previous.distance then
        item :: unsorted (item :: rest)
      else
        unsorted (item :: rest)
  | _ => []

/-- The items that occur for the second time, where `earlier` holds the items
in front of the list. -/
def repeatedAfter (earlier : List (Item α)) : List (Item α) -> List (Item α)
  | [] => []
  | item :: rest =>
      let others := repeatedAfter (earlier ++ [item]) rest
      if occurrences earlier item = 1 then item :: others else others

def repeated (items : List (Item α)) : List (Item α) :=
  repeatedAfter [] items

/-- The distance below which a reference item has to be found.  A list that is
not full reaches to the greatest distance, a full one to its last item, and an
empty one that may hold nothing nowhere. -/
def limit (bounds : Bounds α) (found : List (Item α)) : α :=
  if (found.length : Int) < bounds.maxSize then
    bounds.maxDistance - bounds.maxPruningError
  else
    match found.getLast? with
    | some last => last.distance - bounds.maxError - bounds.maxPruningError
    | none => 0.0

def required (bounds : Bounds α) (found reference : List (Item α)) :
    List (Item α) :=
  let bound := limit bounds found
  reference.filter fun item => item.distance < bound

/-- The reference items below the limit that do not occur exactly once. -/
def notFound (bounds : Bounds α) (found reference : List (Item α)) :
    List (Item α) :=
  (required bounds found reference).filter fun item =>
    occurrences found item ≠ 1

/-- All discrepancies of a list, in the order in which they are looked for. -/
def mismatches (bounds : Bounds α) (label : String)
    (found reference : List (Item α)) : List (Mismatch α) :=
  (unsorted found).map (Mismatch.mk label .unsorted)
    ++ (repeated found).map (Mismatch.mk label .duplicate)
    ++ (notFound bounds found reference).map (Mismatch.mk label .notFound)

/-- The first identifier that cannot be looked up: the items of the list are met
first, then the reference items below the limit. -/
def firstCollection? (bounds : Bounds α) (found reference : List (Item α)) :
    Option Ident.Collection :=
  (found ++ required bounds found reference).findSome? fun item => item.id.collection?

/-- What a check leaves behind: the mismatches that it records and logs, and
its verdict. -/
structure Outcome (α : Type) where
  recorded : List (Mismatch α)
  verdict : Except CheckError Bool

namespace Outcome

def logged (outcome : Outcome Float) : List String :=
  outcome.recorded.map Mismatch.text

/-- Another check after this one.  It runs whatever the verdict is, unless the
first one failed. -/
def andThen (first second : Outcome α) : Outcome α :=
  match first.verdict with
  | .error error => { recorded := first.recorded, verdict := .error error }
  | .ok passed =>
      { recorded := first.recorded ++ second.recorded
        verdict := second.verdict.map (passed && ·) }

end Outcome

def checkSet (bounds : Bounds α) (label : String)
    (found reference : List (Item α)) : Outcome α :=
  match firstCollection? bounds found reference with
  | none =>
      let all := mismatches bounds label found reference
      { recorded := all, verdict := .ok all.isEmpty }
  | some collection => { recorded := [], verdict := .error (.notAKey collection) }

/-!
## Both directions
-/

/-- Distances used for pruning are not conservative, so results this close to
the limit may be missing. -/
def maxPruningError : α := 1e-15

/-- Compare an answer with the list of all items within the greatest distance:
no required item is missing, and there is no extra one. -/
def checkResults (maxSize : Int) (maxDistance maxError : α)
    (expected actual : List (Item α)) : Outcome α :=
  let bounds (pruning : α) : Bounds α :=
    { maxSize := maxSize
      maxDistance := maxDistance
      maxError := maxError
      maxPruningError := pruning }
  (checkSet (bounds maxPruningError) "Missing" actual expected).andThen
    (checkSet (bounds 0.0) "Extra" expected actual)

end Nearest

end SphereFixtures
