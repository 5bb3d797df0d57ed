import SphereFixtures.Proofs.Nearest.Ranks

/-!
# Admissible answers are accepted

A search may choose among items at equal distances, and it may skip an item
that is within the error of the last one it keeps.  None of its answers is
rejected, and none leaves a mismatch behind.
-/

namespace SphereFixtures

namespace Nearest

/-!
## References and answers
-/

/-- A list of expected items that a search can be compared with. -/
structure Reference (expected : List (Item ℝ)) : Prop where
  sorted : Sorted expected
  distinct : Distinct expected
  nonneg : forall item, item ∈ expected -> 0 ≤ item.distance
  keys : forall item, item ∈ expected -> item.id.isKey = true
  proper : forall item, item ∈ expected -> item.id.holdsNaN = false

/-- An answer of the asked size, made of expected items in order and without
repetitions.  No expected item that it lacks is closer than its last one by
more than the error. -/
structure Admissible (maxSize : Int) (maxError : ℝ)
    (expected actual : List (Item ℝ)) : Prop where
  sorted : Sorted actual
  distinct : Distinct actual
  genuine : forall item, item ∈ actual -> Occurs expected item
  full : (actual.length : Int) = min maxSize expected.length
  covers : forall last, actual.getLast? = some last ->
    forall item, item ∈ expected -> item.distance < last.distance - maxError ->
      Occurs actual item

namespace Reference

variable {expected : List (Item ℝ)}

theorem same_self (hreference : Reference expected) {item : Item ℝ}
    (hitem : item ∈ expected) : item.same item = true := by
  rw [Item.same, Bool.and_eq_true]
  exact ⟨beq_self_eq_true item.distance,
    Ident.equal_self (hreference.keys item hitem)
      (hreference.proper item hitem)⟩

theorem occurs (hreference : Reference expected) {item : Item ℝ}
    (hitem : item ∈ expected) : Occurs expected item :=
  ⟨item, hitem, hreference.same_self hitem⟩

theorem firstCollection?_eq_none (hreference : Reference expected)
    {actual : List (Item ℝ)}
    (hgenuine : forall item, item ∈ actual -> Occurs expected item)
    (bounds : Bounds ℝ) :
    firstCollection? bounds actual expected = none ∧
      firstCollection? bounds expected actual = none := by
  have hactual : forall item, item ∈ actual -> item.id.isKey = true := by
    intro item hitem
    rcases hgenuine item hitem with ⟨other, _, hsame⟩
    exact Item.isKey_of_same hsame
  exact ⟨Nearest.firstCollection?_eq_none bounds hactual hreference.keys,
    Nearest.firstCollection?_eq_none bounds hreference.keys hactual⟩

/-- Nothing is found in a list of expected items that lacks none of those
below its limit. -/
theorem checkResults_eq (hreference : Reference expected) {maxSize : Int}
    {maxDistance maxError : ℝ} {actual : List (Item ℝ)}
    (hsorted : Sorted actual) (hdistinct : Distinct actual)
    (hgenuine : forall item, item ∈ actual -> Occurs expected item)
    (hcovers : forall item, item ∈ expected ->
      item.distance <
          limit ⟨maxSize, maxDistance, maxError, maxPruningError⟩ actual ->
        Occurs actual item) :
    checkResults maxSize maxDistance maxError expected actual =
      Outcome.clean := by
  apply checkResults_eq_clean
  · exact
      { keys := (hreference.firstCollection?_eq_none hgenuine _).left
        sorted := hsorted
        distinct := hdistinct
        covers := hcovers }
  · exact
      { keys := (hreference.firstCollection?_eq_none hgenuine _).right
        sorted := hreference.sorted
        distinct := hreference.distinct
        covers := fun item hitem _ => hgenuine item hitem }

end Reference

/-!
## Coverage
-/

/-- A list without repetitions that is as long as the list of which its items
are made leaves nothing out. -/
theorem occurs_of_length_eq {expected actual : List (Item ℝ)}
    (hdistinct : Distinct actual)
    (hgenuine : forall item, item ∈ actual -> Occurs expected item)
    (hlength : actual.length = expected.length) {item : Item ℝ}
    (hitem : item ∈ expected) : Occurs actual item := by
  by_contra hmissing
  rcases List.append_of_mem hitem with ⟨before, behind, rfl⟩
  have hle : actual.length ≤ (before ++ behind).length := by
    apply length_le_of_occurs hdistinct
    intro found hfound
    apply (hgenuine found hfound).of_not_same
    intro hsame
    rw [Item.same_comm] at hsame
    exact hmissing ⟨found, hfound, hsame⟩
  simp only [List.length_append, List.length_cons] at hle hlength
  omega

namespace Admissible

variable {maxSize : Int} {maxError : ℝ} {expected actual : List (Item ℝ)}

/-- Every expected item below the limit of an admissible answer occurs in it.
A short answer holds all items, a full one those that are clearly closer than
its last item, and below the limit of an empty one there are none. -/
theorem occurs_of_lt_limit (hadmissible : Admissible maxSize maxError expected actual)
    (hreference : Reference expected) (maxDistance : ℝ) {item : Item ℝ}
    (hitem : item ∈ expected)
    (hlt : item.distance <
      limit ⟨maxSize, maxDistance, maxError, maxPruningError⟩ actual) :
    Occurs actual item := by
  unfold limit at hlt
  split at hlt
  · next hshort =>
      have hfull := hadmissible.full
      simp only at hshort
      exact occurs_of_length_eq hadmissible.distinct hadmissible.genuine
        (by omega) hitem
  · cases hlast : actual.getLast? with
    | some last =>
        rw [hlast] at hlt
        have hpruning := maxPruningError_nonneg
        exact hadmissible.covers last hlast item hitem
          (by simp only at hlt; linarith)
    | none =>
        rw [hlast] at hlt
        have hnonneg := hreference.nonneg item hitem
        norm_num at hlt
        linarith

/-- The nearest items are an admissible answer, whichever of the items at the
same distance come first. -/
theorem of_nearest (hreference : Reference expected) (hsize : 0 ≤ maxSize)
    (herror : 0 ≤ maxError) {ordered : List (Item ℝ)}
    (hperm : ordered.Perm expected) (hsorted : Sorted ordered) :
    Admissible maxSize maxError expected (ordered.take maxSize.toNat) := by
  have hpairwise := (sorted_iff_pairwise ordered).mp hsorted
  have hdistinct : Distinct ordered := by
    refine (hperm.pairwise_iff ?_).mpr hreference.distinct
    intro a b hab
    rw [Item.same_comm]
    exact hab
  have hsub := List.take_sublist maxSize.toNat ordered
  refine
    { sorted := (sorted_iff_pairwise _).mpr (hpairwise.sublist hsub)
      distinct := hdistinct.sublist hsub
      genuine := ?_
      full := ?_
      covers := ?_ }
  · intro item hitem
    exact hreference.occurs (hperm.mem_iff.mp (List.mem_of_mem_take hitem))
  · rw [List.length_take, hperm.length_eq]
    omega
  · intro last hlast item hitem hlt
    have hordered : item ∈ ordered := hperm.mem_iff.mpr hitem
    rw [← List.take_append_drop maxSize.toNat ordered] at hordered hpairwise
    rcases List.mem_append.mp hordered with htake | hdrop
    · exact ⟨item, htake, hreference.same_self hitem⟩
    · have hle : last.distance ≤ item.distance :=
        (List.pairwise_append.mp hpairwise).2.2 last
          (List.mem_of_getLast? hlast) item hdrop
      linarith

end Admissible

/-!
## No false alarms
-/

/-- An admissible answer is accepted, and nothing is recorded or logged.  So are
the nearest items in any order that is sorted, and all expected items at any
size. -/
theorem no_false_alarms {expected : List (Item ℝ)}
    (hreference : Reference expected) {maxSize : Int} (hsize : 0 ≤ maxSize)
    (maxDistance : ℝ) {maxError : ℝ} (herror : 0 ≤ maxError) :
    (forall actual, Admissible maxSize maxError expected actual ->
      checkResults maxSize maxDistance maxError expected actual =
        Outcome.clean) ∧
    (forall ordered, ordered.Perm expected -> Sorted ordered ->
      checkResults maxSize maxDistance maxError expected
          (ordered.take maxSize.toNat) =
        Outcome.clean) ∧
    checkResults maxSize maxDistance maxError expected expected =
      Outcome.clean := by
  have haccepted : forall actual,
      Admissible maxSize maxError expected actual ->
        checkResults maxSize maxDistance maxError expected actual =
          Outcome.clean := by
    intro actual hadmissible
    exact hreference.checkResults_eq hadmissible.sorted hadmissible.distinct
      hadmissible.genuine fun item hitem =>
        hadmissible.occurs_of_lt_limit hreference maxDistance hitem
  refine ⟨haccepted, ?_, ?_⟩
  · intro ordered hperm hsorted
    exact haccepted _
      (Admissible.of_nearest hreference hsize herror hperm hsorted)
  · exact hreference.checkResults_eq hreference.sorted hreference.distinct
      (fun item hitem => hreference.occurs hitem)
      fun item hitem _ => hreference.occurs hitem

/-- Of two items at the same distance either one may be kept. -/
theorem no_false_alarms_of_tie :
    let expected : List (Item ℝ) :=
      [⟨1, .text "a"⟩, ⟨1, .text "b"⟩, ⟨2, .text "c"⟩]
    let ordered : List (Item ℝ) :=
      [⟨1, .text "b"⟩, ⟨1, .text "a"⟩, ⟨2, .text "c"⟩]
    Reference expected ∧ Admissible 1 0 expected [⟨1, .text "b"⟩] ∧
      ordered.Perm expected ∧ Sorted ordered ∧
      checkResults 1 10 0 expected [⟨1, .text "b"⟩] = Outcome.clean ∧
      checkResults 1 10 0 expected (ordered.take 1) = Outcome.clean ∧
      checkResults 1 10 0 expected expected = Outcome.clean := by
  intro expected ordered
  have hreference : Reference expected :=
    { sorted := by norm_num [Sorted, expected]
      distinct := by simp [Distinct, expected, Item.same]
      nonneg := by norm_num [expected]
      keys := by simp [expected]
      proper := by simp [expected, Ident.holdsNaN] }
  have hadmissible : Admissible 1 0 expected [⟨1, .text "b"⟩] :=
    { sorted := by simp [Sorted]
      distinct := by simp [Distinct]
      genuine := by simp [Occurs, expected, Item.same]
      full := by simp [expected]
      covers := by norm_num [expected] }
  have hperm : ordered.Perm expected := List.Perm.swap _ _ _
  have hsorted : Sorted ordered := by norm_num [Sorted, ordered]
  have hsize : (0 : Int) ≤ 1 := by decide
  rcases no_false_alarms hreference hsize 10 (le_refl 0) with
    ⟨hanswer, hnearest, hself⟩
  exact ⟨hreference, hadmissible, hperm, hsorted, hanswer _ hadmissible,
    hnearest ordered hperm hsorted, hself⟩

end Nearest

end SphereFixtures
