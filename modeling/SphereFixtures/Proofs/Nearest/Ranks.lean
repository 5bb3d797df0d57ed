import Mathlib
import SphereFixtures.Proofs.Nearest.Verdict
import SphereFixtures.Proofs.Scalars

/-!
# Accepted answers, rank by rank

A check never compares ranks.  Still an accepted answer is as close as the
expected items at every rank, up to the tolerances: otherwise too many items of
one list would have to occur among too few of the other.
-/

namespace SphereFixtures

namespace Nearest

/-!
## Counting
-/

section

variable {α : Type} [Scalar α] [PartialEquivBEq α]

/-- A list without repetitions is no longer than one in which all its items
occur. -/
theorem length_le_of_occurs {items others : List (Item α)}
    (hdistinct : Distinct items)
    (hoccurs : forall item, item ∈ items -> Occurs others item) :
    items.length ≤ others.length := by
  induction items generalizing others with
  | nil =>
      exact Nat.zero_le _
  | cons item rest ih =>
      rcases (distinct_cons_iff item rest).mp hdistinct with ⟨hitem, hrest⟩
      rcases hoccurs item List.mem_cons_self with ⟨other, hother, hsame⟩
      -- the partner of the first item is taken out of the other list
      rcases List.append_of_mem hother with ⟨before, behind, rfl⟩
      have hle : rest.length ≤ (before ++ behind).length := by
        apply ih hrest
        intro next hnext
        apply (hoccurs next (List.mem_cons_of_mem item hnext)).of_not_same
        intro hboth
        rw [Item.same_comm] at hboth
        exact hitem ⟨next, hnext, Item.same_trans hsame hboth⟩
      simp only [List.length_append, List.length_cons] at hle ⊢
      omega

end

/-!
## Sorted lists of exact distances
-/

theorem sorted_iff_pairwise (items : List (Item ℝ)) :
    Sorted items <-> items.Pairwise fun a b => a.distance ≤ b.distance := by
  have htrans : IsTrans (Item ℝ) fun a b => ¬ b.distance < a.distance :=
    ⟨fun _ _ _ hab hbc => not_lt.mpr ((not_lt.mp hab).trans (not_lt.mp hbc))⟩
  rw [Sorted, List.isChain_iff_pairwise]
  simp only [not_lt]

theorem Sorted.getElem_le {items : List (Item ℝ)} (hsorted : Sorted items)
    {i j : Nat} (hij : i ≤ j) (hj : j < items.length) :
    items[i].distance ≤ items[j].distance := by
  rw [sorted_iff_pairwise, List.pairwise_iff_getElem] at hsorted
  rcases Nat.eq_or_lt_of_le hij with heq | hlt
  · subst heq
    exact le_refl _
  · exact hsorted i j (hij.trans_lt hj) hj hlt

theorem distance_eq_of_same {a b : Item ℝ} (hsame : a.same b = true) :
    a.distance = b.distance := by
  rw [Item.same, Bool.and_eq_true] at hsame
  exact eq_of_beq hsame.left

/-- When the items of a list that are closer than a bound occur in another
one, the other list is not farther at the rank of any of them. -/
theorem distance_le_of_covered {items others : List (Item ℝ)}
    (hitems : Sorted items) (hdistinct : Distinct items)
    (hothers : Sorted others) {bound : ℝ}
    (hcovers : forall item, item ∈ items -> item.distance < bound ->
      Occurs others item)
    {i : Nat} (hi : i < items.length) (hi' : i < others.length)
    (hbound : items[i].distance < bound) :
    others[i].distance ≤ items[i].distance := by
  by_contra hfar
  have hoccurs : forall item, item ∈ items.take (i + 1) ->
      Occurs (others.take i) item := by
    intro item hitem
    rcases List.mem_take_iff_getElem.mp hitem with ⟨j, hj, rfl⟩
    have hle : items[j].distance ≤ items[i].distance :=
      hitems.getElem_le (by omega) hi
    rcases hcovers items[j] (List.getElem_mem _) (hle.trans_lt hbound) with
      ⟨other, hother, hsame⟩
    refine ⟨other, ?_, hsame⟩
    rcases List.getElem_of_mem hother with ⟨k, hk, rfl⟩
    have hki : k < i := by
      by_contra hik
      have hlater : others[i].distance ≤ others[k].distance :=
        hothers.getElem_le (Nat.le_of_not_lt hik) hk
      have heq := distance_eq_of_same hsame
      linarith
    exact List.mem_take_iff_getElem.mpr ⟨k, by omega, rfl⟩
  have hcount := length_le_of_occurs
    (hdistinct.sublist (List.take_sublist (i + 1) items)) hoccurs
  simp only [List.length_take] at hcount
  omega

/-!
## One direction
-/

/-- The limit of a list reaches as far as each of its items, up to the
tolerances, unless the list is short and the item is out of range. -/
theorem sub_le_limit {bounds : Bounds ℝ} {found : List (Item ℝ)}
    (hsorted : Sorted found) {i : Nat} (hi : i < found.length)
    (herror : 0 ≤ bounds.maxError)
    (hreach : bounds.maxSize ≤ found.length ∨
      found[i].distance ≤ bounds.maxDistance) :
    found[i].distance - bounds.maxError - bounds.maxPruningError ≤
      limit bounds found := by
  unfold limit
  split
  · next hshort =>
      have hwithin : found[i].distance ≤ bounds.maxDistance :=
        hreach.resolve_left (not_le.mpr hshort)
      linarith
  · next hfull =>
      have hlast : found.getLast? = some found[found.length - 1] :=
        List.getLast?_eq_getElem? ▸ List.getElem?_eq_getElem (by omega)
      have hle : found[i].distance ≤ found[found.length - 1].distance :=
        hsorted.getElem_le (by omega) (by omega)
      rw [hlast]
      linarith

theorem distance_le_of_passes {bounds : Bounds ℝ}
    {found reference : List (Item ℝ)} (hpasses : Passes bounds found reference)
    (hreference : Sorted reference) (hdistinct : Distinct reference)
    (herror : 0 ≤ bounds.maxError) (hpruning : 0 ≤ bounds.maxPruningError)
    {i : Nat} (hi : i < found.length) (hi' : i < reference.length)
    (hreach : bounds.maxSize ≤ found.length ∨
      found[i].distance ≤ bounds.maxDistance) :
    found[i].distance ≤
      reference[i].distance + bounds.maxError + bounds.maxPruningError := by
  by_cases hlt : reference[i].distance < limit bounds found
  · have hle : found[i].distance ≤ reference[i].distance :=
      distance_le_of_covered hreference hdistinct hpasses.sorted
        hpasses.covers hi' hi hlt
    linarith
  · have hle := sub_le_limit hpasses.sorted hi herror hreach
    linarith

/-!
## Both directions
-/

theorem maxPruningError_nonneg : 0 ≤ (maxPruningError : ℝ) := by
  norm_num [maxPruningError]

/-- At every rank of both lists an accepted answer is at most the error closer
than the expected item.  It is at most the error and the pruning error farther,
if the answer is full or within the greatest distance at this rank. -/
theorem rank_bounds_of_accepted {maxSize : Int} {maxDistance maxError : ℝ}
    {expected actual : List (Item ℝ)} (herror : 0 ≤ maxError)
    (hwithin : forall item, item ∈ expected -> item.distance ≤ maxDistance)
    (haccepted :
      (checkResults maxSize maxDistance maxError expected actual).verdict =
        .ok true)
    {i : Nat} (hexpected : i < expected.length) (hactual : i < actual.length) :
    expected[i].distance - maxError ≤ actual[i].distance ∧
      (maxSize ≤ actual.length ∨ actual[i].distance ≤ maxDistance ->
        actual[i].distance ≤
          expected[i].distance + maxError + maxPruningError) := by
  rcases checkResults_verdict_iff.mp haccepted with ⟨hmissing, hextra⟩
  constructor
  · have hle := distance_le_of_passes hextra hmissing.sorted hmissing.distinct
      herror (by norm_num) hexpected hactual
      (Or.inr (hwithin _ (List.getElem_mem hexpected)))
    norm_num at hle
    linarith
  · intro hreach
    exact distance_le_of_passes hmissing hextra.sorted hextra.distinct
      herror maxPruningError_nonneg hactual hexpected hreach

/-- The answer skips an item that is within the error of its last one. -/
theorem rank_bounds_of_skipped_item :
    let expected : List (Item ℝ) :=
      [⟨1, .text "a"⟩, ⟨2, .text "b"⟩, ⟨3, .text "c"⟩]
    let actual : List (Item ℝ) := [⟨1, .text "a"⟩, ⟨3, .text "c"⟩]
    (0 : ℝ) ≤ 3 / 2 ∧
      (forall item, item ∈ expected -> item.distance ≤ 10) ∧
      (checkResults 2 10 (3 / 2) expected actual).verdict = .ok true ∧
      (2 - 3 / 2 : ℝ) ≤ 3 ∧ (3 : ℝ) ≤ 2 + 3 / 2 + maxPruningError := by
  intro expected actual
  have herror : (0 : ℝ) ≤ 3 / 2 := by norm_num
  have hwithin : forall item, item ∈ expected -> item.distance ≤ 10 := by
    simp [expected]
    norm_num
  have haccepted :
      (checkResults 2 10 (3 / 2) expected actual).verdict = .ok true := by
    rw [checkResults_verdict_iff]
    constructor
    · constructor
      · simp [firstCollection?_eq_none_iff, limit, expected, actual]
      · norm_num [Sorted, actual]
      · norm_num [Distinct, actual, Item.same]
      · norm_num [limit, expected, actual, Occurs, Item.same, maxPruningError]
    · constructor
      · simp [firstCollection?_eq_none_iff, limit, expected, actual]
      · norm_num [Sorted, expected]
      · norm_num [Distinct, expected, Item.same]
      · norm_num [limit, expected, actual, Occurs, Item.same]
  have hranks := rank_bounds_of_accepted herror hwithin haccepted
    (i := 1) (by decide) (by decide)
  exact ⟨herror, hwithin, haccepted, hranks.left,
    hranks.right (Or.inl (by decide))⟩

end Nearest

end SphereFixtures
