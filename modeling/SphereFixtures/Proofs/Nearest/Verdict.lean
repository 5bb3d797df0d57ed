import Mathlib.Data.List.Chain
import SphereFixtures.Nearest.Check
import SphereFixtures.Proofs.Nearest.Equality

/-!
# What a verdict means

A check passes exactly when all items it looks up are keys, its list is in
order and without repetitions, and every reference item below the limit occurs
in it.  A check that passes records nothing.
-/

namespace SphereFixtures

namespace Nearest

variable {α : Type}

/-!
## Outcomes
-/

namespace Outcome

/-- The outcome of a check without discrepancies. -/
def clean : Outcome α :=
  { recorded := [], verdict := .ok true }

instance (outcome : Outcome α) : Decidable (outcome.verdict = .ok true) :=
  match outcome.verdict with
  | .ok true => isTrue rfl
  | .ok false => isFalse (by simp)
  | .error _ => isFalse (by simp)

theorem andThen_verdict_iff (first second : Outcome α) :
    (first.andThen second).verdict = .ok true <->
      first.verdict = .ok true ∧ second.verdict = .ok true := by
  unfold andThen
  cases hfirst : first.verdict with
  | error error => simp
  | ok passed =>
      cases hsecond : second.verdict with
      | error error => simp [Except.map]
      | ok also => simp [Except.map]

end Outcome

/-!
## Properties of lists
-/

variable [Scalar α]

/-- Whether an item is the same as one of a list. -/
def Occurs (items : List (Item α)) (item : Item α) : Prop :=
  exists other, other ∈ items ∧ item.same other = true

/-- No item is closer than the one in front of it. -/
def Sorted (items : List (Item α)) : Prop :=
  items.IsChain fun previous item => ¬ item.distance < previous.distance

def Distinct (items : List (Item α)) : Prop :=
  items.Pairwise fun a b => a.same b = false

instance (items : List (Item α)) (item : Item α) :
    Decidable (Occurs items item) :=
  inferInstanceAs (Decidable (exists other, other ∈ items ∧ _))

instance (items : List (Item α)) : Decidable (Sorted items) :=
  inferInstanceAs (Decidable (items.IsChain _))

instance (items : List (Item α)) : Decidable (Distinct items) :=
  inferInstanceAs (Decidable (items.Pairwise _))

theorem unsorted_eq_nil_iff (items : List (Item α)) :
    unsorted items = [] <-> Sorted items := by
  fun_induction unsorted items with
  | case1 previous item rest hlt _ =>
      simp [Sorted, hlt]
  | case2 previous item rest hle ih =>
      rw [ih]
      simp [Sorted, hle]
  | case3 items hshort =>
      cases items with
      | nil => simp [Sorted]
      | cons item rest =>
          cases rest with
          | nil => simp [Sorted]
          | cons next rest => exact absurd rfl (hshort item next rest)

theorem distinct_cons_iff (item : Item α) (rest : List (Item α)) :
    Distinct (item :: rest) <-> ¬ Occurs rest item ∧ Distinct rest := by
  simp [Distinct, Occurs]

/-!
## Keys
-/

theorem firstCollection?_eq_none_iff (bounds : Bounds α)
    (found reference : List (Item α)) :
    firstCollection? bounds found reference = none <->
      (forall item, item ∈ found -> item.id.isKey = true) ∧
        forall item, item ∈ reference ->
          item.distance < limit bounds found -> item.id.isKey = true := by
  simp only [firstCollection?, required, List.findSome?_eq_none_iff, List.mem_append,
    List.mem_filter, decide_eq_true_iff, Ident.isKey_iff_collection?]
  constructor
  · intro h
    exact ⟨fun item hitem => h item (.inl hitem),
      fun item hitem hlt => h item (.inr ⟨hitem, hlt⟩)⟩
  · rintro ⟨hfound, hreference⟩ item (hitem | ⟨hitem, hlt⟩)
    · exact hfound item hitem
    · exact hreference item hitem hlt

theorem firstCollection?_eq_none (bounds : Bounds α)
    {found reference : List (Item α)}
    (hfound : forall item, item ∈ found -> item.id.isKey = true)
    (hreference : forall item, item ∈ reference -> item.id.isKey = true) :
    firstCollection? bounds found reference = none :=
  (firstCollection?_eq_none_iff bounds found reference).mpr
    ⟨hfound, fun item hitem _ => hreference item hitem⟩

/-!
## Occurrences
-/

theorem occurrences_eq_zero_iff (items : List (Item α)) (item : Item α) :
    occurrences items item = 0 <-> ¬ Occurs items item := by
  simp [occurrences, Occurs]

theorem Occurs.of_not_same {before behind : List (Item α)} {item other : Item α}
    (hitem : Occurs (before ++ other :: behind) item)
    (hother : ¬ item.same other = true) : Occurs (before ++ behind) item := by
  rcases hitem with ⟨partner, hmem, hsame⟩
  have hne : partner ≠ other := by
    intro heq
    exact hother (heq ▸ hsame)
  exact ⟨partner, by simpa [hne] using hmem, hsame⟩

variable [PartialEquivBEq α]

theorem Occurs.of_same {items : List (Item α)} {a b : Item α}
    (hab : a.same b = true) (hb : Occurs items b) : Occurs items a := by
  rcases hb with ⟨other, hmem, hother⟩
  exact ⟨other, hmem, Item.same_trans hab hother⟩

theorem Distinct.not_occurs_of_append {items others : List (Item α)}
    (hdistinct : Distinct (items ++ others)) {item : Item α}
    (hitem : item ∈ others) : ¬ Occurs items item := by
  rintro ⟨other, hmem, hsame⟩
  have hdifferent : other.same item = false :=
    (List.pairwise_append.mp hdistinct).2.2 other hmem item hitem
  rw [Item.same_comm, hsame] at hdifferent
  cases hdifferent

/-- A list without repetitions holds no item twice: two of its items that are
the same as a third one are the same. -/
theorem occurrences_le_one {items : List (Item α)} (hdistinct : Distinct items)
    (item : Item α) : occurrences items item ≤ 1 := by
  induction items with
  | nil =>
      simp [occurrences]
  | cons first rest ih =>
      rcases (distinct_cons_iff first rest).mp hdistinct with ⟨hfirst, hrest⟩
      by_cases hsame : item.same first = true
      · have hnone : occurrences rest item = 0 := by
          rw [occurrences_eq_zero_iff]
          intro hoccurs
          rw [Item.same_comm] at hsame
          exact hfirst (hoccurs.of_same hsame)
        rw [occurrences] at hnone
        simp [occurrences, hsame, hnone]
      · have hle := ih hrest
        rw [occurrences] at hle
        simpa [occurrences, List.countP_cons, hsame] using hle

theorem occurrences_eq_one_iff {items : List (Item α)}
    (hdistinct : Distinct items) (item : Item α) :
    occurrences items item = 1 <-> Occurs items item := by
  have hle := occurrences_le_one hdistinct item
  have hzero := occurrences_eq_zero_iff items item
  constructor
  · intro hone
    by_contra hnot
    have hnone := hzero.mpr hnot
    omega
  · intro hoccurs
    have hsome : occurrences items item ≠ 0 := fun h => hzero.mp h hoccurs
    omega

/-- Behind a list without repetitions nothing is recorded as long as no item
occurs in what is in front of it. -/
theorem repeatedAfter_eq_nil_iff {earlier : List (Item α)}
    (hearlier : Distinct earlier) (items : List (Item α)) :
    repeatedAfter earlier items = [] <->
      Distinct (earlier ++ items) := by
  induction items generalizing earlier with
  | nil =>
      simpa [repeatedAfter] using hearlier
  | cons item rest ih =>
      rw [repeatedAfter]
      by_cases hone : occurrences earlier item = 1
      · have hnot : ¬ Distinct (earlier ++ item :: rest) := by
          intro hall
          exact hall.not_occurs_of_append List.mem_cons_self
            ((occurrences_eq_one_iff hearlier item).mp hone)
        simp [hone, hnot]
      · have hnew : Distinct (earlier ++ [item]) := by
          refine List.pairwise_append.mpr
            ⟨hearlier, List.pairwise_singleton _ _, ?_⟩
          intro other hmem last hlast
          rw [List.mem_singleton.mp hlast]
          by_contra hsame
          refine hone ((occurrences_eq_one_iff hearlier item).mpr ?_)
          exact ⟨other, hmem, by
            rw [Item.same_comm]
            exact eq_true_of_ne_false hsame⟩
        simp only [hone, if_false]
        rw [ih hnew, List.append_assoc, List.singleton_append]

theorem repeated_eq_nil_iff (items : List (Item α)) :
    repeated items = [] <-> Distinct items :=
  repeatedAfter_eq_nil_iff List.Pairwise.nil items

/-!
## One direction
-/

/-- What a check of a list against reference items asks for. -/
structure Passes (bounds : Bounds α) (found reference : List (Item α)) :
    Prop where
  keys : firstCollection? bounds found reference = none
  sorted : Sorted found
  distinct : Distinct found
  covers : forall item, item ∈ reference ->
    item.distance < limit bounds found -> Occurs found item

theorem notFound_eq_nil_iff {bounds : Bounds α}
    {found reference : List (Item α)} (hdistinct : Distinct found) :
    notFound bounds found reference = [] <->
      forall item, item ∈ reference ->
        item.distance < limit bounds found -> Occurs found item := by
  simp [notFound, required, occurrences_eq_one_iff hdistinct, not_imp_not]

theorem passes_iff (bounds : Bounds α) (label : String)
    (found reference : List (Item α)) :
    Passes bounds found reference <->
      firstCollection? bounds found reference = none ∧
        mismatches bounds label found reference = [] := by
  simp only [mismatches, List.append_eq_nil_iff, List.map_eq_nil_iff,
    unsorted_eq_nil_iff, repeated_eq_nil_iff]
  constructor
  · intro h
    exact ⟨h.keys, ⟨h.sorted, h.distinct⟩,
      (notFound_eq_nil_iff h.distinct).mpr h.covers⟩
  · rintro ⟨hkeys, ⟨hsorted, hdistinct⟩, hfound⟩
    exact ⟨hkeys, hsorted, hdistinct,
      (notFound_eq_nil_iff hdistinct).mp hfound⟩

theorem checkSet_eq_clean {bounds : Bounds α} (label : String)
    {found reference : List (Item α)} (h : Passes bounds found reference) :
    checkSet bounds label found reference = Outcome.clean := by
  rcases (passes_iff bounds label found reference).mp h with ⟨hkeys, hnone⟩
  simp [checkSet, hkeys, hnone, Outcome.clean]

theorem checkSet_verdict_iff (bounds : Bounds α) (label : String)
    (found reference : List (Item α)) :
    (checkSet bounds label found reference).verdict = .ok true <->
      Passes bounds found reference := by
  constructor
  · intro h
    rw [passes_iff bounds label]
    unfold checkSet at h
    split at h
    · next hkeys => exact ⟨hkeys, by simpa using h⟩
    · cases h
  · intro h
    rw [checkSet_eq_clean label h]
    rfl

/-!
## Both directions
-/

variable {maxSize : Int} {maxDistance maxError : α}
  {expected actual : List (Item α)}

/-- An answer is accepted when it passes against the expected items up to the
pruning error and they pass against it without one. -/
theorem checkResults_verdict_iff :
    (checkResults maxSize maxDistance maxError expected actual).verdict =
        .ok true <->
      Passes ⟨maxSize, maxDistance, maxError, maxPruningError⟩ actual expected ∧
        Passes ⟨maxSize, maxDistance, maxError, 0.0⟩ expected actual := by
  rw [checkResults, Outcome.andThen_verdict_iff, checkSet_verdict_iff,
    checkSet_verdict_iff]

theorem checkResults_eq_clean
    (hactual :
      Passes ⟨maxSize, maxDistance, maxError, maxPruningError⟩ actual expected)
    (hexpected : Passes ⟨maxSize, maxDistance, maxError, 0.0⟩ expected actual) :
    checkResults maxSize maxDistance maxError expected actual =
      Outcome.clean := by
  rw [checkResults, checkSet_eq_clean _ hactual, checkSet_eq_clean _ hexpected]
  rfl

end Nearest

end SphereFixtures
