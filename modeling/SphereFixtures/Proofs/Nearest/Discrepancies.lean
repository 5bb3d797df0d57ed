import SphereFixtures.Logging.Review
import SphereFixtures.Proofs.Nearest.Verdict
import SphereFixtures.Proofs.Scalars

/-!
# What a check records

The discrepancies of a list are read off its items: those that are closer than
the one in front of them, those that occur for the second time, and the
reference items below the limit that do not occur once.  A check of items with
keys records each of them once, in this order, and logs the same.
-/

namespace SphereFixtures

namespace Nearest

variable {α : Type} [Scalar α]

/-!
## Discrepancies
-/

/-- The items that are closer than the one in front of them. -/
def descents (items : List (Item α)) : List (Item α) :=
  ((items.zip items.tail).filter fun (previous, item) =>
    item.distance < previous.distance).map Prod.snd

/-- The items at the places in front of which the same item stands once. -/
def secondOccurrences (items : List (Item α)) : List (Item α) :=
  (items.zipIdx.filter fun (item, place) =>
    occurrences (items.take place) item = 1).map Prod.fst

/-- The reference items below a bound whose number of occurrences is not
one. -/
def uncovered (bound : α) (found reference : List (Item α)) : List (Item α) :=
  reference.filter fun item =>
    item.distance < bound ∧ occurrences found item ≠ 1

def discrepancies (bound : α) (label : String)
    (found reference : List (Item α)) : List (Mismatch α) :=
  (descents found).map (Mismatch.mk label .unsorted)
    ++ (secondOccurrences found).map (Mismatch.mk label .duplicate)
    ++ (uncovered bound found reference).map (Mismatch.mk label .notFound)

/-- The distance up to which a list has to be complete.  One that is not full
reaches to the greatest distance, a full one to its last item. -/
inductive HasLimit (bounds : Bounds α) : List (Item α) -> α -> Prop where
  | short {found : List (Item α)} : (found.length : Int) < bounds.maxSize ->
      HasLimit bounds found (bounds.maxDistance - bounds.maxPruningError)
  | full {front : List (Item α)} {last : Item α} :
      bounds.maxSize ≤ (front ++ [last]).length ->
      HasLimit bounds (front ++ [last])
        (last.distance - bounds.maxError - bounds.maxPruningError)
  | empty : bounds.maxSize ≤ 0 -> HasLimit bounds [] 0.0

theorem unsorted_eq_descents (items : List (Item α)) :
    unsorted items = descents items := by
  fun_induction unsorted items with
  | case1 previous item rest hlt ih =>
      rw [ih]
      simp [descents, hlt]
  | case2 previous item rest hle ih =>
      rw [ih]
      simp [descents, hle]
  | case3 items hshort =>
      cases items with
      | nil => rfl
      | cons item rest =>
          cases rest with
          | nil => rfl
          | cons next rest => exact absurd rfl (hshort item next rest)

/-- The places behind `earlier` are counted from its length on. -/
theorem repeatedAfter_eq (earlier items : List (Item α)) :
    repeatedAfter earlier items =
      ((items.zipIdx earlier.length).filter fun (item, place) =>
        occurrences ((earlier ++ items).take place) item = 1).map Prod.fst := by
  induction items generalizing earlier with
  | nil => rfl
  | cons item rest ih =>
      have hrest := ih (earlier ++ [item])
      rw [List.length_append, List.length_singleton, List.append_assoc,
        List.singleton_append] at hrest
      rw [repeatedAfter, hrest, List.zipIdx_cons, List.filter_cons]
      by_cases hone : occurrences earlier item = 1 <;> simp [hone]

theorem repeated_eq_secondOccurrences (items : List (Item α)) :
    repeated items = secondOccurrences items :=
  repeatedAfter_eq [] items

theorem notFound_eq_uncovered (bounds : Bounds α)
    (found reference : List (Item α)) :
    notFound bounds found reference =
      uncovered (limit bounds found) found reference := by
  simp [notFound, required, uncovered, List.filter_filter, Bool.and_comm]

theorem mismatches_eq (bounds : Bounds α) (label : String)
    (found reference : List (Item α)) :
    mismatches bounds label found reference =
      discrepancies (limit bounds found) label found reference := by
  rw [mismatches, unsorted_eq_descents, repeated_eq_secondOccurrences,
    notFound_eq_uncovered, discrepancies]

theorem hasLimit_limit (bounds : Bounds α) (found : List (Item α)) :
    HasLimit bounds found (limit bounds found) := by
  unfold limit
  split
  · next hshort => exact .short hshort
  · next hfull =>
      have hle : bounds.maxSize ≤ (found.length : Int) := Int.not_lt.mp hfull
      cases hlast : found.getLast? with
      | some last =>
          rcases List.getLast?_eq_some_iff.mp hlast with ⟨front, rfl⟩
          exact .full hle
      | none =>
          rw [List.getLast?_eq_none_iff] at hlast
          subst hlast
          exact .empty hle

/-!
## Multiplicities
-/

theorem occurrences_append (items others : List (Item α)) (item : Item α) :
    occurrences (items ++ others) item =
      occurrences items item + occurrences others item :=
  List.countP_append

theorem occurrences_cons (first : Item α) (rest : List (Item α))
    (item : Item α) :
    occurrences (first :: rest) item =
      occurrences rest item + if item.same first then 1 else 0 :=
  List.countP_cons

variable [PartialEquivBEq α]

theorem occurrences_eq_of_same (items : List (Item α)) {a b : Item α}
    (hab : a.same b = true) : occurrences items a = occurrences items b := by
  apply List.countP_congr
  intro other _
  constructor
  · intro ha
    rw [Item.same_comm] at hab
    exact Item.same_trans hab ha
  · intro hb
    exact Item.same_trans hab hb

/-- However often an item occurs, it is recorded where its number of occurrences
comes to two and nowhere else. -/
theorem occurrences_repeatedAfter (earlier items : List (Item α))
    (item : Item α) :
    occurrences (repeatedAfter earlier items) item =
      if occurrences earlier item ≤ 1 ∧
          2 ≤ occurrences (earlier ++ items) item then 1 else 0 := by
  induction items generalizing earlier with
  | nil =>
      rw [List.append_nil, if_neg (by omega)]
      rfl
  | cons first rest ih =>
      have hrest := ih (earlier ++ [first])
      have hbehind : occurrences (earlier ++ [first]) item =
          occurrences earlier item + if item.same first then 1 else 0 := by
        rw [occurrences_append, occurrences_cons]
        exact congrArg _ (Nat.zero_add _)
      rw [List.append_assoc, List.singleton_append, hbehind] at hrest
      rw [repeatedAfter]
      by_cases hsame : item.same first = true
      · -- the first item is recorded when it is the second of its kind
        have htotal : occurrences (earlier ++ first :: rest) item =
            occurrences earlier item + (occurrences rest item + 1) := by
          rw [occurrences_append, occurrences_cons, if_pos hsame]
        rw [if_pos hsame] at hrest
        rw [← occurrences_eq_of_same earlier hsame]
        by_cases hone : occurrences earlier item = 1
        · rw [if_pos hone, occurrences_cons, if_pos hsame, hrest,
            if_neg (by omega), if_pos (by omega)]
        · rw [if_neg hone, hrest]
          exact if_congr (by omega) rfl rfl
      · have hskipped : forall others : List (Item α),
            occurrences (first :: others) item = occurrences others item := by
          intro others
          rw [occurrences_cons, if_neg hsame]
          rfl
        rw [if_neg hsame] at hrest
        by_cases hone : occurrences earlier first = 1
        · rw [if_pos hone, hskipped]
          exact hrest
        · rw [if_neg hone]
          exact hrest

theorem occurrences_secondOccurrences (items : List (Item α))
    (item : Item α) :
    occurrences (secondOccurrences items) item =
      if 2 ≤ occurrences items item then 1 else 0 := by
  rw [← repeated_eq_secondOccurrences, repeated, occurrences_repeatedAfter]
  have hnone : occurrences [] item ≤ 1 := Nat.zero_le 1
  exact if_congr (and_iff_right hnone) rfl rfl

end Nearest

/-!
## Records of a check
-/

namespace Nearest

/-- The outcome of a check that looks at all its items. -/
def Outcome.recording {α : Type} (records : List (Mismatch α)) : Outcome α :=
  { recorded := records, verdict := .ok records.isEmpty }

theorem Outcome.recording_andThen {α : Type} (records others : List (Mismatch α)) :
    (recording records).andThen (recording others) =
      recording (records ++ others) := by
  cases records <;> rfl

section

variable {α : Type} [Scalar α]

theorem checkSet_of_firstCollection?_eq_none {bounds : Bounds α} (label : String)
    {found reference : List (Item α)}
    (hkeys : firstCollection? bounds found reference = none) :
    checkSet bounds label found reference =
      .recording (discrepancies (limit bounds found) label found reference) := by
  rw [checkSet, hkeys, mismatches_eq]
  rfl

end

end Nearest

/-!
## Reports
-/

namespace Logging

/-- What a review leaves behind that adds mismatches to those collected before
and logs each of them. -/
structure Review.Reports (review : Review) (before : State)
    (prior : Option (List (Nearest.Mismatch Float)))
    (records : List (Nearest.Mismatch Float)) : Prop where
  collected : review.collected = prior.map (· ++ records)
  logged : review.state = before.emitAll (records.map fun m =>
    { logger := Registry.mismatchPath
      level := Level.warning
      message := m.text })
  verdict : review.verdict = .ok records.isEmpty

theorem reports_recording (state : State)
    (prior : Option (List (Nearest.Mismatch Float)))
    (records : List (Nearest.Mismatch Float)) :
    (state.review prior (.recording records)).Reports state prior records :=
  ⟨rfl, rfl, rfl⟩

end Logging

namespace Nearest

/-- A check of items with keys records and logs the discrepancies of its list
once each and in order, and passes when there are none; an item that is repeated
counts once however often it occurs.  The check of an answer records those of
both directions. -/
theorem discrepancies_recorded_once_in_order (bounds : Bounds Float)
    (label : String) {found reference : List (Item Float)}
    (hfound : forall item, item ∈ found -> item.id.isKey = true)
    (hreference : forall item, item ∈ reference -> item.id.isKey = true)
    (state : Logging.State) (prior : Option (List (Mismatch Float))) :
    (exists bound, HasLimit bounds found bound ∧
      (state.review prior (checkSet bounds label found reference)).Reports state
        prior (discrepancies bound label found reference)) ∧
    (forall item, occurrences (secondOccurrences found) item =
      if 2 ≤ occurrences found item then 1 else 0) ∧
    (forall maxSize maxDistance maxError, exists missing extra,
      HasLimit ⟨maxSize, maxDistance, maxError, maxPruningError⟩ found missing ∧
      HasLimit ⟨maxSize, maxDistance, maxError, 0.0⟩ reference extra ∧
      (state.review prior
        (checkResults maxSize maxDistance maxError reference found)).Reports state
          prior (discrepancies missing "Missing" found reference
            ++ discrepancies extra "Extra" reference found)) := by
  have hkeys : forall bounds : Bounds Float,
      firstCollection? bounds found reference = none ∧
        firstCollection? bounds reference found = none :=
    fun bounds => ⟨firstCollection?_eq_none bounds hfound hreference,
      firstCollection?_eq_none bounds hreference hfound⟩
  refine ⟨?_, occurrences_secondOccurrences found, ?_⟩
  · refine ⟨_, hasLimit_limit bounds found, ?_⟩
    rw [checkSet_of_firstCollection?_eq_none label (hkeys bounds).left]
    exact Logging.reports_recording state prior _
  · intro maxSize maxDistance maxError
    refine ⟨_, _, hasLimit_limit _ found, hasLimit_limit _ reference, ?_⟩
    rw [checkResults, checkSet_of_firstCollection?_eq_none "Missing" (hkeys _).left,
      checkSet_of_firstCollection?_eq_none "Extra" (hkeys _).right,
      Outcome.recording_andThen]
    exact Logging.reports_recording state prior _

/-- Three identifiers of one value behind a number that is equal to nothing, and
an item that is too close for its place. -/
def equalNumbers : List (Item Float) :=
  [⟨1.0, .real (0.0 / 0.0)⟩, ⟨1.0, .whole 1⟩, ⟨1.0, .flag true⟩, ⟨1.0, .real 1.0⟩,
    ⟨0.5, .text "a"⟩]

/-- The second of the three is the one that is recorded. -/
theorem discrepancies_recorded_of_equal_numbers :
    let bounds : Bounds Float := ⟨9, 2.0, 0.0, 1e-15⟩
    let reference : List (Item Float) := [⟨0.25, .text "b"⟩, ⟨1.0, .whole 1⟩]
    (forall item, item ∈ equalNumbers -> item.id.isKey = true) ∧
    (forall item, item ∈ reference -> item.id.isKey = true) ∧
    (secondOccurrences equalNumbers).map (·.id.display) = ["True"] ∧
    occurrences (secondOccurrences equalNumbers) ⟨1.0, .whole 1⟩ = 1 ∧
    exists bound, HasLimit bounds equalNumbers bound ∧
      (Logging.State.initial.review none
        (checkSet bounds "Missing" equalNumbers reference)).Reports .initial none
          (discrepancies bound "Missing" equalNumbers reference) := by
  intro bounds reference
  have hfound : forall item, item ∈ equalNumbers -> item.id.isKey = true := by
    decide
  have hreference : forall item, item ∈ reference -> item.id.isKey = true := by
    decide
  have hone : (secondOccurrences equalNumbers).map (·.id.display) = ["True"] := by
    decide +kernel
  rcases discrepancies_recorded_once_in_order bounds "Missing" hfound hreference
    .initial none with ⟨hreports, hcount, _⟩
  have htwice : 2 ≤ occurrences equalNumbers ⟨1.0, .whole 1⟩ := by
    decide +kernel
  exact ⟨hfound, hreference, hone, (hcount _).trans (if_pos htwice), hreports⟩

end Nearest

end SphereFixtures
