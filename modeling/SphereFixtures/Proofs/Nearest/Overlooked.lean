import SphereFixtures.Proofs.Nearest.Verdict
import SphereFixtures.Proofs.Scalars

/-!
# Items that a check overlooks

The items of an answer are looked up among the expected ones only below the
limit of the expected list, and the length of an answer is not compared with
the greatest size.  So an accepted answer is sound exactly when it is not too
long and its items at or beyond the limit are expected ones.
-/

namespace SphereFixtures

namespace Nearest

variable {α : Type} [Scalar α]

/-- An answer that is not longer than allowed and holds expected items only. -/
def Sound (maxSize : Int) (expected actual : List (Item α)) : Prop :=
  (actual.length : Int) ≤ maxSize ∧
    forall item, item ∈ actual -> Occurs expected item

instance (maxSize : Int) (expected actual : List (Item α)) :
    Decidable (Sound maxSize expected actual) :=
  inferInstanceAs (Decidable (_ ∧ _))

/-- The distance below which an item of an answer has to be an expected one. -/
def reach (maxSize : Int) (maxDistance maxError : α)
    (expected : List (Item α)) : α :=
  limit ⟨maxSize, maxDistance, maxError, 0.0⟩ expected

variable [PartialEquivBEq α]

/-- Expected items with more items behind them pass, as long as none of these
is within reach. -/
theorem checkResults_append_eq {maxSize : Int} {maxDistance maxError : α}
    {expected extra : List (Item α)}
    (hkeys : forall item, item ∈ expected ++ extra -> item.id.isKey = true)
    (hself : forall item, item ∈ expected -> item.same item = true)
    (hsorted : Sorted (expected ++ extra))
    (hdistinct : Distinct (expected ++ extra))
    (hbeyond : forall item, item ∈ extra ->
      ¬ item.distance < reach maxSize maxDistance maxError expected) :
    checkResults maxSize maxDistance maxError expected (expected ++ extra) =
      Outcome.clean := by
  have hexpected : forall item, item ∈ expected -> item.id.isKey = true :=
    fun item hitem => hkeys item (List.mem_append_left extra hitem)
  apply checkResults_eq_clean
  · exact
      { keys := firstCollection?_eq_none _ hkeys hexpected
        sorted := hsorted
        distinct := hdistinct
        covers := by
          intro item hitem _
          exact ⟨item, List.mem_append_left extra hitem, hself item hitem⟩ }
  · exact
      { keys := firstCollection?_eq_none _ hexpected hkeys
        sorted := hsorted.left_of_append
        distinct := (List.pairwise_append.mp hdistinct).1
        covers := by
          intro item hitem hlt
          rcases List.mem_append.mp hitem with hexpected | hextra
          · exact ⟨item, hexpected, hself item hexpected⟩
          · exact absurd hlt (hbeyond item hextra) }

/-- Within reach an accepted answer holds expected items only, so it is sound
exactly when it is not too long and holds no others beyond.  Neither is ensured
at any setting: whatever stands behind the expected items and beyond reach is
accepted with them. -/
theorem accepted_sound_iff (maxSize : Int) (maxDistance maxError : α)
    (expected : List (Item α)) :
    (forall actual,
      (checkResults maxSize maxDistance maxError expected actual).verdict =
          .ok true ->
        (forall item, item ∈ actual ->
          item.distance < reach maxSize maxDistance maxError expected ->
            Occurs expected item) ∧
        (Sound maxSize expected actual <->
          (actual.length : Int) ≤ maxSize ∧
            forall item, item ∈ actual ->
              ¬ item.distance < reach maxSize maxDistance maxError expected ->
                Occurs expected item)) ∧
    (forall extra,
      (forall item, item ∈ expected ++ extra -> item.id.isKey = true) ->
      (forall item, item ∈ expected -> item.same item = true) ->
      Sorted (expected ++ extra) -> Distinct (expected ++ extra) ->
      (forall item, item ∈ extra ->
        ¬ item.distance < reach maxSize maxDistance maxError expected) ->
      (checkResults maxSize maxDistance maxError expected
          (expected ++ extra)).verdict = .ok true ∧
        forall item, item ∈ extra -> ¬ Occurs expected item) := by
  constructor
  · intro actual haccepted
    have hwithin := (checkResults_verdict_iff.mp haccepted).2.covers
    refine ⟨hwithin, ?_⟩
    constructor
    · rintro ⟨hsize, hgenuine⟩
      exact ⟨hsize, fun item hitem _ => hgenuine item hitem⟩
    · rintro ⟨hsize, hbeyond⟩
      refine ⟨hsize, ?_⟩
      intro item hitem
      by_cases hlt :
          item.distance < reach maxSize maxDistance maxError expected
      · exact hwithin item hitem hlt
      · exact hbeyond item hitem hlt
  · intro extra hkeys hself hsorted hdistinct hbeyond
    rw [checkResults_append_eq hkeys hself hsorted hdistinct hbeyond]
    refine ⟨rfl, ?_⟩
    intro item hitem
    exact hdistinct.not_occurs_of_append hitem

/-- Three items at sorted distances, for the answers below. -/
def threeItems : List (Item Float) :=
  [⟨1.0, .text "a"⟩, ⟨2.0, .text "b"⟩, ⟨3.0, .text "c"⟩]

/-- The two nearest items are sound, and a foreign item behind all three is
accepted. -/
theorem accepted_sound_iff_of_three_items :
    (checkResults 2 10.0 0.0 threeItems (threeItems.take 2)).verdict =
        .ok true ∧
      Sound 2 threeItems (threeItems.take 2) ∧
      (checkResults 2 10.0 0.0 threeItems
          (threeItems ++ [⟨20.0, .text "z"⟩])).verdict = .ok true ∧
      ¬ Occurs threeItems ⟨20.0, .text "z"⟩ := by
  rcases accepted_sound_iff 2 10.0 0.0 threeItems with ⟨hsound, hextra⟩
  have haccepted :
      (checkResults 2 10.0 0.0 threeItems (threeItems.take 2)).verdict =
        .ok true := by
    decide +kernel
  have hiff := (hsound (threeItems.take 2) haccepted).2
  have hfar := hextra [⟨20.0, .text "z"⟩] (by decide +kernel)
    (by decide +kernel) (by decide +kernel) (by decide +kernel)
    (by decide +kernel)
  exact ⟨haccepted, hiff.mpr (by decide +kernel), hfar.1,
    hfar.2 _ (List.mem_singleton.mpr rfl)⟩

/-- At a size of two, three items and a foreign one behind them are accepted,
whether the foreign one is far away or at no distance at all. -/
theorem accepted_not_sound :
    Sorted threeItems ∧ Distinct threeItems ∧
      (checkResults 2 10.0 0.0 threeItems
          (threeItems ++ [⟨20.0, .text "z"⟩])).verdict = .ok true ∧
      ¬ Occurs threeItems ⟨20.0, .text "z"⟩ ∧
      (checkResults 2 10.0 0.0 threeItems
          (threeItems ++ [⟨0.0 / 0.0, .text "z"⟩])).verdict = .ok true ∧
      ¬ Occurs threeItems ⟨0.0 / 0.0, .text "z"⟩ ∧
      ¬ Sound 2 threeItems (threeItems ++ [⟨20.0, .text "z"⟩]) := by
  decide +kernel

end Nearest

end SphereFixtures
