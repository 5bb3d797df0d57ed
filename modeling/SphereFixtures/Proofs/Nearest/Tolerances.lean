import Mathlib
import SphereFixtures.Proofs.Nearest.Lookups

/-!
# Looser tolerances

A greater error, a greater pruning error or a lesser greatest distance lowers
the limit of a list, whether it is full or not.  So a looser check asks for fewer
items, records no mismatch that the stricter one does not record, and accepts
what that one accepts.
-/

namespace SphereFixtures

namespace Nearest

/-!
## Limits
-/

/-- Tolerances at least as great for lists of the same size. -/
structure Bounds.Loosens (loose strict : Bounds ℝ) : Prop where
  maxSize_eq : loose.maxSize = strict.maxSize
  maxDistance_le : loose.maxDistance ≤ strict.maxDistance
  le_maxError : strict.maxError ≤ loose.maxError
  le_maxPruningError : strict.maxPruningError ≤ loose.maxPruningError

variable {loose strict : Bounds ℝ}

theorem Bounds.Loosens.limit_le (h : loose.Loosens strict)
    (found : List (Item ℝ)) : limit loose found ≤ limit strict found := by
  have hdistance := h.maxDistance_le
  have herror := h.le_maxError
  have hpruning := h.le_maxPruningError
  unfold limit
  rw [h.maxSize_eq]
  split
  · linarith
  · cases found.getLast? with
    | none => exact le_refl _
    | some last =>
        simp only
        linarith

/-!
## Records
-/

theorem discrepancies_sublist {bound bound' : ℝ} (hle : bound' ≤ bound)
    (label : String) (found reference : List (Item ℝ)) :
    (discrepancies bound' label found reference).Sublist
      (discrepancies bound label found reference) := by
  have huncovered : (uncovered bound' found reference).Sublist
      (uncovered bound found reference) := by
    apply List.monotone_filter_right
    intro item hitem
    rw [decide_eq_true_iff] at hitem ⊢
    exact ⟨hitem.left.trans_le hle, hitem.right⟩
  exact (List.Sublist.refl _).append (huncovered.map _)

theorem Bounds.Loosens.meetsKeys (h : loose.Loosens strict)
    {found reference : List (Item ℝ)}
    (hstrict : MeetsKeys strict found reference) :
    MeetsKeys loose found reference := by
  refine ⟨hstrict.left, ?_⟩
  intro item hitem hno hlt
  exact hstrict.right item hitem hno (hlt.trans_le (h.limit_le found))

/-!
## Outcomes
-/

/-- Unless the other check fails, this one does not fail either and records a
part of what that one records, in the same order; it accepts what that one
accepts. -/
structure Outcome.Eases (loose strict : Outcome ℝ) : Prop where
  returns : ¬ Fails strict.verdict -> ¬ Fails loose.verdict
  recorded : ¬ Fails strict.verdict -> loose.recorded.Sublist strict.recorded
  accepts : strict.verdict = .ok true -> loose.verdict = .ok true

theorem Outcome.eases_recording {records others : List (Mismatch ℝ)}
    (h : records.Sublist others) :
    (recording records).Eases (recording others) := by
  refine ⟨fun _ => not_fails_recording records, fun _ => h, ?_⟩
  intro haccepted
  have hnone : others = [] := by
    simpa [recording] using haccepted
  rw [hnone, List.sublist_nil] at h
  rw [h]
  rfl

theorem Outcome.eases_of_fails {loose strict : Outcome ℝ}
    (h : Fails strict.verdict) : loose.Eases strict := by
  refine ⟨absurd h, absurd h, ?_⟩
  intro haccepted
  rcases h with ⟨collection, herror⟩
  rw [herror] at haccepted
  cases haccepted

theorem checkSet_eases (h : loose.Loosens strict) (label : String)
    (found reference : List (Item ℝ)) :
    (checkSet loose label found reference).Eases
      (checkSet strict label found reference) := by
  by_cases hstrict : MeetsKeys strict found reference
  · rw [checkSet_of_meetsKeys label hstrict,
      checkSet_of_meetsKeys label (h.meetsKeys hstrict)]
    exact Outcome.eases_recording
      (discrepancies_sublist (h.limit_le found) label found reference)
  · exact Outcome.eases_of_fails
      ((checkSet_fails_iff strict label found reference).mpr hstrict)

theorem checkResults_eases (h : loose.Loosens strict)
    (expected actual : List (Item ℝ)) :
    (checkResults loose.maxSize loose.maxDistance loose.maxError expected
        actual).Eases
      (checkResults strict.maxSize strict.maxDistance strict.maxError expected
        actual) := by
  -- the pruning error is the same on both sides
  have hpruning : forall pruning : ℝ,
      Bounds.Loosens
        ⟨loose.maxSize, loose.maxDistance, loose.maxError, pruning⟩
        ⟨strict.maxSize, strict.maxDistance, strict.maxError, pruning⟩ :=
    fun pruning =>
      ⟨h.maxSize_eq, h.maxDistance_le, h.le_maxError, le_refl pruning⟩
  have hmissing := hpruning maxPruningError
  have hextra := hpruning 0.0
  by_cases hstrict :
      MeetsKeys ⟨strict.maxSize, strict.maxDistance, strict.maxError,
        maxPruningError⟩ actual expected ∧
      MeetsKeys ⟨strict.maxSize, strict.maxDistance, strict.maxError, 0.0⟩
        expected actual
  · rw [checkResults_of_meetsKeys hstrict.left hstrict.right,
      checkResults_of_meetsKeys (hmissing.meetsKeys hstrict.left)
        (hextra.meetsKeys hstrict.right)]
    apply Outcome.eases_recording
    apply List.Sublist.append
    · exact discrepancies_sublist (hmissing.limit_le actual) _ _ _
    · exact discrepancies_sublist (hextra.limit_le expected) _ _ _
  · exact Outcome.eases_of_fails
      (checkResults_fails_iff_not_meetsKeys.mpr hstrict)

/-- A looser check records a part of what the stricter one records, in the same
order, and accepts what that one accepts, in one direction and in both.  The
stricter check must not fail for this, which it does not on lists of keys. -/
theorem looser_tolerances_record_no_more (h : loose.Loosens strict)
    (label : String) (expected actual : List (Item ℝ)) :
    (checkSet loose label actual expected).Eases
      (checkSet strict label actual expected) ∧
    (checkResults loose.maxSize loose.maxDistance loose.maxError expected
        actual).Eases
      (checkResults strict.maxSize strict.maxDistance strict.maxError expected
        actual) ∧
    ((forall item, item ∈ expected ∨ item ∈ actual -> item.id.isKey = true) ->
      (checkSet loose label actual expected).recorded.Sublist
        (checkSet strict label actual expected).recorded ∧
      (checkResults loose.maxSize loose.maxDistance loose.maxError expected
          actual).recorded.Sublist
        (checkResults strict.maxSize strict.maxDistance strict.maxError expected
          actual).recorded) := by
  have hset := checkSet_eases h label actual expected
  have hresults := checkResults_eases h expected actual
  refine ⟨hset, hresults, ?_⟩
  intro hkeys
  have hno : forall item, item ∈ expected ∨ item ∈ actual ->
      ¬ Ident.HoldsCollection item.id :=
    fun item hitem => (Ident.isKey_iff item.id).mp (hkeys item hitem)
  constructor
  · apply hset.recorded
    rw [checkSet_fails_iff, not_not]
    exact ((meetsKeys_both_iff strict strict expected actual).mpr hno).left
  · apply hresults.recorded
    rw [checkResults_fails_iff]
    rintro ⟨item, hitem, hcollection⟩
    exact hno item hitem hcollection

/-- The answer leaves out an item that only the stricter check asks for. -/
theorem looser_tolerances_record_no_more_of_skipped_item :
    let strict : Bounds ℝ := ⟨2, 10, 0, 0⟩
    let loose : Bounds ℝ := ⟨2, 9, 3 / 2, 1⟩
    let expected : List (Item ℝ) :=
      [⟨1, .text "a"⟩, ⟨2, .text "b"⟩, ⟨3, .text "c"⟩]
    let actual : List (Item ℝ) := [⟨1, .text "a"⟩, ⟨3, .text "c"⟩]
    loose.Loosens strict ∧
      (forall item, item ∈ expected ∨ item ∈ actual -> item.id.isKey = true) ∧
      (checkSet loose "Missing" actual expected).Eases
        (checkSet strict "Missing" actual expected) ∧
      (checkResults 2 9 (3 / 2) expected actual).Eases
        (checkResults 2 10 0 expected actual) ∧
      (checkSet loose "Missing" actual expected).recorded.Sublist
        (checkSet strict "Missing" actual expected).recorded ∧
      (checkResults 2 9 (3 / 2) expected actual).recorded.Sublist
        (checkResults 2 10 0 expected actual).recorded := by
  intro strict loose expected actual
  have hloosens : loose.Loosens strict := by
    constructor <;> norm_num [loose, strict]
  have hexpected : forall item, item ∈ expected -> item.id.isKey = true := by
    simp [expected]
  have hactual : forall item, item ∈ actual -> item.id.isKey = true := by
    simp [actual]
  have hkeys : forall item, item ∈ expected ∨ item ∈ actual ->
      item.id.isKey = true :=
    fun item hitem => hitem.elim (hexpected item) (hactual item)
  rcases looser_tolerances_record_no_more hloosens "Missing" expected actual with
    ⟨hset, hresults, hrecorded⟩
  exact ⟨hloosens, hkeys, hset, hresults, hrecorded hkeys⟩

end Nearest

end SphereFixtures
