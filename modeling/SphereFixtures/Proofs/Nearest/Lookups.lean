import SphereFixtures.Proofs.Nearest.Discrepancies

/-!
# Items that cannot be looked up

A list or a mapping cannot be looked up, nor can a tuple that holds one.  A check
of one list fails when it meets such an identifier, and leaves nothing behind.
The check of an answer meets all identifiers of both lists; what it leaves
behind depends on the direction in which it meets the first one.
-/

namespace SphereFixtures

/-!
## Identifiers that are no keys
-/

namespace Ident

/-- A list or a mapping, or a tuple that holds one at any depth. -/
inductive HoldsCollection : Ident -> Prop where
  | list (items : List Ident) : HoldsCollection (.list items)
  | mapping (keys : List String) (values : List Ident) :
      HoldsCollection (.mapping keys values)
  | tuple {items : List Ident} {item : Ident} :
      item ∈ items -> HoldsCollection item -> HoldsCollection (.tuple items)

mutual

theorem holdsCollection_of_collection? : forall {a : Ident} {collection : Collection},
    a.collection? = some collection -> HoldsCollection a
  | .nothing, _, h => by
      cases h
  | .flag _, _, h => by
      cases h
  | .whole _, _, h => by
      cases h
  | .real _, _, h => by
      cases h
  | .text _, _, h => by
      cases h
  | .tuple items, _, h => by
      rw [collection?] at h
      rcases exists_of_firstCollection? h with ⟨item, hmem, hitem⟩
      exact .tuple hmem hitem
  | .list items, _, _ => .list items
  | .mapping keys values, _, _ => .mapping keys values

theorem exists_of_firstCollection? : forall {items : List Ident}
    {collection : Collection}, firstCollection? items = some collection ->
      exists item, item ∈ items ∧ HoldsCollection item
  | [], _, h => by
      cases h
  | item :: items, _, h => by
      rw [firstCollection?, Option.or_eq_some_iff] at h
      rcases h with hitem | ⟨_, hitems⟩
      · exact ⟨item, List.mem_cons_self, holdsCollection_of_collection? hitem⟩
      · rcases exists_of_firstCollection? hitems with ⟨other, hmem, hother⟩
        exact ⟨other, List.mem_cons_of_mem item hmem, hother⟩

end

theorem collection?_eq_none_of_mem {items : List Ident}
    (hitems : firstCollection? items = none) {item : Ident} (hmem : item ∈ items) :
    item.collection? = none := by
  induction items with
  | nil => cases hmem
  | cons first rest ih =>
      rw [firstCollection?_cons] at hitems
      rcases List.mem_cons.mp hmem with rfl | hrest
      · exact hitems.left
      · exact ih hitems.right hrest

theorem collection?_eq_none_iff (a : Ident) :
    a.collection? = none <-> ¬ HoldsCollection a := by
  constructor
  · intro hnone h
    induction h with
    | list items => cases hnone
    | mapping keys values => cases hnone
    | tuple hmem _ ih =>
        rw [collection?] at hnone
        exact ih (collection?_eq_none_of_mem hnone hmem)
  · intro hno
    cases hsome : a.collection? with
    | none => rfl
    | some collection => exact absurd (holdsCollection_of_collection? hsome) hno

theorem isKey_iff (a : Ident) : a.isKey = true <-> ¬ HoldsCollection a := by
  rw [isKey_iff_collection?, collection?_eq_none_iff]

end Ident

namespace Nearest

open Ident

/-!
## Checks that fail
-/

/-- Whether a check fails, whatever it meets. -/
def Fails (verdict : Except CheckError Bool) : Prop :=
  exists collection, verdict = .error (.notAKey collection)

/-- The outcome of a check that fails. -/
def Outcome.failed {α : Type} (collection : Collection) : Outcome α :=
  { recorded := [], verdict := .error (.notAKey collection) }

theorem Outcome.fails_failed {α : Type} (collection : Collection) :
    Fails (failed collection : Outcome α).verdict :=
  ⟨collection, rfl⟩

theorem Outcome.not_fails_recording {α : Type} (records : List (Mismatch α)) :
    ¬ Fails (recording records).verdict := by
  rintro ⟨collection, h⟩
  cases h

theorem Outcome.failed_andThen {α : Type} (collection : Collection)
    (second : Outcome α) : (failed collection).andThen second = failed collection := rfl

theorem Outcome.recording_andThen_failed {α : Type}
    (records : List (Mismatch α)) (collection : Collection) :
    (recording records).andThen (failed collection) =
      { recorded := records, verdict := .error (.notAKey collection) } := by
  rw [andThen, recording, failed, List.append_nil]
  rfl

section

variable {α : Type} [Scalar α]

/-- Whether a check meets keys only: in its list, and in the reference as far as
it is looked up. -/
def MeetsKeys (bounds : Bounds α) (found reference : List (Item α)) : Prop :=
  (forall item, item ∈ found -> ¬ HoldsCollection item.id) ∧
    forall item, item ∈ reference -> HoldsCollection item.id ->
      ¬ item.distance < limit bounds found

theorem firstCollection?_eq_none_iff_meetsKeys (bounds : Bounds α)
    (found reference : List (Item α)) :
    firstCollection? bounds found reference = none <->
      MeetsKeys bounds found reference := by
  simp only [firstCollection?_eq_none_iff, isKey_iff, MeetsKeys, imp_not_comm]

/-- What a check meets first is named when it fails. -/
theorem firstCollection?_eq_some_iff (bounds : Bounds α)
    (found reference : List (Item α)) (collection : Collection) :
    firstCollection? bounds found reference = some collection <->
      exists front item rest,
        found ++ required bounds found reference = front ++ item :: rest ∧
          item.id.collection? = some collection ∧
          forall other, other ∈ front -> ¬ HoldsCollection other.id := by
  rw [firstCollection?, List.findSome?_eq_some_iff]
  simp only [collection?_eq_none_iff]

theorem not_meetsKeys_iff (bounds : Bounds α)
    (found reference : List (Item α)) :
    ¬ MeetsKeys bounds found reference <->
      (exists item, item ∈ found ∧ HoldsCollection item.id) ∨
        exists item, item ∈ reference ∧ HoldsCollection item.id ∧
          item.distance < limit bounds found := by
  simp only [MeetsKeys, not_and_or, not_forall, not_not, exists_prop]

theorem checkSet_of_meetsKeys {bounds : Bounds α} (label : String)
    {found reference : List (Item α)} (h : MeetsKeys bounds found reference) :
    checkSet bounds label found reference =
      .recording (discrepancies (limit bounds found) label found reference) :=
  checkSet_of_firstCollection?_eq_none label
    ((firstCollection?_eq_none_iff_meetsKeys _ _ _).mpr h)

theorem checkSet_of_firstCollection?_eq_some {bounds : Bounds α} (label : String)
    {found reference : List (Item α)} {collection : Collection}
    (h : firstCollection? bounds found reference = some collection) :
    checkSet bounds label found reference = .failed collection := by
  rw [checkSet, h]
  rfl

theorem exists_failed_of_not_meetsKeys {bounds : Bounds α} (label : String)
    {found reference : List (Item α)}
    (h : ¬ MeetsKeys bounds found reference) :
    exists collection, checkSet bounds label found reference = .failed collection := by
  rw [← firstCollection?_eq_none_iff_meetsKeys] at h
  rcases Option.ne_none_iff_exists'.mp h with ⟨collection, hsome⟩
  exact ⟨collection, checkSet_of_firstCollection?_eq_some label hsome⟩

theorem checkSet_fails_iff (bounds : Bounds α) (label : String)
    (found reference : List (Item α)) :
    Fails (checkSet bounds label found reference).verdict <->
      ¬ MeetsKeys bounds found reference := by
  constructor
  · intro hfails h
    rw [checkSet_of_meetsKeys label h] at hfails
    exact Outcome.not_fails_recording _ hfails
  · intro h
    rcases exists_failed_of_not_meetsKeys label h with ⟨collection, hfailed⟩
    rw [hfailed]
    exact Outcome.fails_failed collection

theorem checkSet_verdict_eq_notAKey_iff (bounds : Bounds α) (label : String)
    (found reference : List (Item α)) (collection : Collection) :
    (checkSet bounds label found reference).verdict = .error (.notAKey collection) <->
      firstCollection? bounds found reference = some collection := by
  cases hfirst : firstCollection? bounds found reference with
  | none =>
      rw [checkSet_of_firstCollection?_eq_none label hfirst]
      simp [Outcome.recording]
  | some first =>
      rw [checkSet_of_firstCollection?_eq_some label hfirst]
      simp [Outcome.failed]

/-!
## Both directions
-/

variable {maxSize : Int} {maxDistance maxError : α}
  {expected actual : List (Item α)}

theorem checkResults_of_not_meetsKeys
    (h : ¬ MeetsKeys ⟨maxSize, maxDistance, maxError, maxPruningError⟩ actual
      expected) :
    checkResults maxSize maxDistance maxError expected actual =
      checkSet ⟨maxSize, maxDistance, maxError, maxPruningError⟩ "Missing" actual
        expected := by
  rcases exists_failed_of_not_meetsKeys "Missing" h with ⟨collection, hfailed⟩
  rw [checkResults, hfailed, Outcome.failed_andThen]

theorem checkResults_of_meetsKeys_missing
    (hmissing : MeetsKeys ⟨maxSize, maxDistance, maxError, maxPruningError⟩
      actual expected)
    (hextra : ¬ MeetsKeys ⟨maxSize, maxDistance, maxError, 0.0⟩ expected
      actual) :
    checkResults maxSize maxDistance maxError expected actual =
      { recorded := discrepancies
          (limit ⟨maxSize, maxDistance, maxError, maxPruningError⟩ actual)
          "Missing" actual expected
        verdict := (checkSet ⟨maxSize, maxDistance, maxError, 0.0⟩ "Extra" expected
          actual).verdict } := by
  rcases exists_failed_of_not_meetsKeys "Extra" hextra with ⟨collection, hfailed⟩
  rw [checkResults, checkSet_of_meetsKeys "Missing" hmissing, hfailed,
    Outcome.recording_andThen_failed]
  rfl

theorem checkResults_of_meetsKeys
    (hmissing : MeetsKeys ⟨maxSize, maxDistance, maxError, maxPruningError⟩
      actual expected)
    (hextra : MeetsKeys ⟨maxSize, maxDistance, maxError, 0.0⟩ expected
      actual) :
    checkResults maxSize maxDistance maxError expected actual =
      .recording (discrepancies
          (limit ⟨maxSize, maxDistance, maxError, maxPruningError⟩ actual)
          "Missing" actual expected
        ++ discrepancies (limit ⟨maxSize, maxDistance, maxError, 0.0⟩ expected)
          "Extra" expected actual) := by
  rw [checkResults, checkSet_of_meetsKeys "Missing" hmissing,
    checkSet_of_meetsKeys "Extra" hextra, Outcome.recording_andThen]

theorem checkResults_fails_iff_not_meetsKeys :
    Fails (checkResults maxSize maxDistance maxError expected actual).verdict <->
      ¬ (MeetsKeys ⟨maxSize, maxDistance, maxError, maxPruningError⟩ actual
          expected ∧
        MeetsKeys ⟨maxSize, maxDistance, maxError, 0.0⟩ expected actual) := by
  by_cases hmissing :
      MeetsKeys ⟨maxSize, maxDistance, maxError, maxPruningError⟩ actual expected
  · by_cases hextra :
        MeetsKeys ⟨maxSize, maxDistance, maxError, 0.0⟩ expected actual
    · rw [checkResults_of_meetsKeys hmissing hextra]
      exact iff_of_false (Outcome.not_fails_recording _)
        (not_not_intro ⟨hmissing, hextra⟩)
    · rw [checkResults_of_meetsKeys_missing hmissing hextra, checkSet_fails_iff]
      exact iff_of_true hextra fun h => hextra h.right
  · rw [checkResults_of_not_meetsKeys hmissing, checkSet_fails_iff]
    exact iff_of_true hmissing fun h => hmissing h.left

/-- All items of both lists are met, as each list is looked up whole in one of
the directions. -/
theorem meetsKeys_both_iff (missing extra : Bounds α)
    (expected actual : List (Item α)) :
    MeetsKeys missing actual expected ∧ MeetsKeys extra expected actual <->
      forall item, item ∈ expected ∨ item ∈ actual ->
        ¬ HoldsCollection item.id := by
  constructor
  · rintro ⟨hactual, hexpected⟩ item (hitem | hitem)
    · exact hexpected.left item hitem
    · exact hactual.left item hitem
  · intro h
    exact ⟨⟨fun item hitem => h item (.inr hitem),
        fun item hitem hno => absurd hno (h item (.inl hitem))⟩,
      fun item hitem => h item (.inl hitem),
      fun item hitem hno => absurd hno (h item (.inr hitem))⟩

theorem checkResults_fails_iff :
    Fails (checkResults maxSize maxDistance maxError expected actual).verdict <->
      exists item, (item ∈ expected ∨ item ∈ actual) ∧
        HoldsCollection item.id := by
  rw [checkResults_fails_iff_not_meetsKeys, meetsKeys_both_iff]
  simp only [not_forall, not_not, exists_prop]

end

/-!
## What is left behind
-/

theorem review_failed (state : Logging.State)
    (prior : Option (List (Mismatch Float))) (collection : Collection) :
    state.review prior (.failed collection) =
      { state := state
        collected := prior
        verdict := .error (.notAKey collection) } := by
  simp [Logging.State.review, Outcome.failed, Logging.State.emitAll]

theorem review_of_not_meetsKeys {bounds : Bounds Float} (label : String)
    {found reference : List (Item Float)} (h : ¬ MeetsKeys bounds found reference)
    (state : Logging.State) (prior : Option (List (Mismatch Float))) :
    let review := state.review prior (checkSet bounds label found reference)
    review.collected = prior ∧ review.state = state := by
  intro review
  rcases exists_failed_of_not_meetsKeys label h with ⟨collection, hfailed⟩
  have hreview := review_failed state prior collection
  rw [← hfailed] at hreview
  rw [show review = _ from hreview]
  exact ⟨rfl, rfl⟩

/-- A check of one list fails exactly when it looks up a collection, names the first
one that it meets, and leaves nothing behind.  The check of an answer fails exactly
when there is one at any distance in either list; the mismatches of its first
direction are left behind exactly when that one meets keys only. -/
theorem failed_lookups_and_what_they_leave :
    (forall (bounds : Bounds Float) (label : String)
      (found reference : List (Item Float)) (state : Logging.State)
      (prior : Option (List (Mismatch Float))),
      let review := state.review prior (checkSet bounds label found reference)
      (Fails review.verdict <->
        (exists item, item ∈ found ∧ HoldsCollection item.id) ∨
          exists item, item ∈ reference ∧ HoldsCollection item.id ∧
            item.distance < limit bounds found) ∧
      (forall collection, review.verdict = .error (.notAKey collection) <->
        exists front item rest,
          found ++ required bounds found reference = front ++ item :: rest ∧
            item.id.collection? = some collection ∧
            forall other, other ∈ front -> ¬ HoldsCollection other.id) ∧
      (Fails review.verdict ->
        review.collected = prior ∧ review.state = state)) ∧
    (forall (maxSize : Int) (maxDistance maxError : Float)
      (expected actual : List (Item Float)) (state : Logging.State)
      (prior : Option (List (Mismatch Float))),
      let bounds (pruning : Float) : Bounds Float :=
        ⟨maxSize, maxDistance, maxError, pruning⟩
      let missing := checkSet (bounds maxPruningError) "Missing" actual expected
      let extra := checkSet (bounds 0.0) "Extra" expected actual
      let bound := limit (bounds maxPruningError) actual
      let records := discrepancies bound "Missing" actual expected
      let review := state.review prior
        (checkResults maxSize maxDistance maxError expected actual)
      (Fails review.verdict <->
        exists item, (item ∈ expected ∨ item ∈ actual) ∧
          HoldsCollection item.id) ∧
      (¬ Fails missing.verdict <->
        (forall item, item ∈ actual -> ¬ HoldsCollection item.id) ∧
          forall item, item ∈ expected -> HoldsCollection item.id ->
            ¬ item.distance < bound) ∧
      (Fails review.verdict -> ¬ Fails missing.verdict ->
        review.verdict = extra.verdict ∧
          review.collected = prior.map (· ++ records) ∧
          review.state = state.emitAll (records.map Logging.Record.mismatch)) ∧
      (Fails missing.verdict ->
        review.verdict = missing.verdict ∧ review.collected = prior ∧
          review.state = state)) := by
  constructor
  · intro bounds label found reference state prior review
    have hfails := checkSet_fails_iff bounds label found reference
    refine ⟨hfails.trans (not_meetsKeys_iff bounds found reference), ?_, ?_⟩
    · intro collection
      exact (checkSet_verdict_eq_notAKey_iff bounds label found reference collection).trans
        (firstCollection?_eq_some_iff bounds found reference collection)
    · intro hverdict
      exact review_of_not_meetsKeys label (hfails.mp hverdict) state prior
  · intro maxSize maxDistance maxError expected actual state prior bounds missing
      extra bound records review
    have hmissing : Fails missing.verdict <->
        ¬ MeetsKeys (bounds maxPruningError) actual expected :=
      checkSet_fails_iff _ "Missing" actual expected
    refine ⟨checkResults_fails_iff, not_iff_comm.mp hmissing.symm, ?_, ?_⟩
    · intro hfails hreached
      have hmeets : MeetsKeys (bounds maxPruningError) actual expected :=
        not_not.mp (mt hmissing.mpr hreached)
      have hresults := checkResults_of_meetsKeys_missing hmeets fun hextra =>
        checkResults_fails_iff_not_meetsKeys.mp hfails ⟨hmeets, hextra⟩
      have hreview : review = state.review prior
          { recorded := records, verdict := extra.verdict } :=
        congrArg (state.review prior) hresults
      rw [hreview]
      exact ⟨rfl, rfl, rfl⟩
    · intro hfails
      have hreview : review = state.review prior missing :=
        congrArg (state.review prior)
          (checkResults_of_not_meetsKeys (hmissing.mp hfails))
      rw [hreview]
      exact ⟨rfl, review_of_not_meetsKeys "Missing" (hmissing.mp hfails) state prior⟩

/-- The expected item with a mapping in its tuple is out of reach of the answer,
so that the answer is reported as unsorted before the check fails. -/
theorem failed_lookups_of_nested_mapping :
    let expected : List (Item Float) :=
      [⟨1.0, .text "a"⟩, ⟨3.0, .tuple [.whole 7, .mapping [] []]⟩]
    let actual : List (Item Float) := [⟨2.0, .text "b"⟩, ⟨1.0, .text "a"⟩]
    let review := Logging.State.initial.review (some [])
      (checkResults 5 2.5 0.0 expected actual)
    review.verdict = .error (.notAKey .mapping) ∧
      review.collected.map (·.map Mismatch.kind) = some [.unsorted] := by
  intro expected actual review
  rcases failed_lookups_and_what_they_leave with ⟨hset, hresults⟩
  rcases hresults 5 2.5 0.0 expected actual .initial (some []) with
    ⟨hfails, _, hleft, _⟩
  have hverdict : Fails review.verdict := by
    refine hfails.mpr ⟨⟨3.0, .tuple [.whole 7, .mapping [] []]⟩, ?_, ?_⟩
    · simp [expected]
    · exact .tuple (List.mem_cons_of_mem _ (List.mem_singleton.mpr rfl))
        (.mapping [] [])
  have hmissing : ¬ Fails (checkSet ⟨5, 2.5, 0.0, maxPruningError⟩ "Missing" actual
      expected).verdict := by
    rintro ⟨collection, herror⟩
    revert herror
    cases collection <;> decide +kernel
  rcases hleft hverdict hmissing with ⟨hextra, hcollected, _⟩
  constructor
  · rw [show review.verdict = _ from hextra]
    decide +kernel
  · rw [show review.collected = _ from hcollected]
    decide +kernel

end Nearest

end SphereFixtures
