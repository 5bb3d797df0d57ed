import Mathlib.Algebra.BigOperators.Ring.List
import Mathlib.Algebra.Order.Field.Basic
import Mathlib.Algebra.Order.Field.Rat
import Mathlib.Tactic.Linarith
import Mathlib.Tactic.Ring

/-!
# Chances

An ideal draw has outcomes with weights, and the weights are rational numbers.
Draws are independent of each other: when one follows another, the weights of
their outcomes are multiplied.
-/

namespace SphereFixtures

/-- The outcomes of an ideal draw, with their weights. -/
structure Chances (α : Type) where
  outcomes : List (ℚ × α)

namespace Chances

variable {α β : Type}

instance : Monad Chances where
  pure a := { outcomes := [(1, a)] }
  bind x f :=
    { outcomes := x.outcomes.flatMap fun first =>
        (f first.2).outcomes.map fun second =>
          (first.1 * second.1, second.2) }

/-- A draw that is true once in `n` times. -/
def oneIn (n : Int) : Chances Bool :=
  { outcomes := [(1 / n, true), (1 - 1 / n, false)] }

/-- The mean of a value over all outcomes. -/
def mean (x : Chances α) (value : α -> ℚ) : ℚ :=
  (x.outcomes.map fun outcome => outcome.1 * value outcome.2).sum

/-- The weight of the outcomes that have a property. -/
def chance (x : Chances α) (p : α -> Prop) [DecidablePred p] : ℚ :=
  x.mean fun a => if p a then 1 else 0

/-- Whether the weights are those of a distribution. -/
structure Balanced (x : Chances α) : Prop where
  nonneg : forall outcome, outcome ∈ x.outcomes -> 0 ≤ outcome.1
  total : x.mean (fun _ => 1) = 1

/-!
## Means
-/

theorem mean_pure (a : α) (value : α -> ℚ) :
    (pure a : Chances α).mean value = value a := by
  show (1 * value a + 0 : ℚ) = value a
  rw [add_zero, one_mul]

/-- The mean over two draws is that of the means over the second one. -/
theorem mean_bind (x : Chances α) (f : α -> Chances β) (value : β -> ℚ) :
    (x >>= f).mean value = x.mean fun a => (f a).mean value := by
  rcases x with ⟨outcomes⟩
  show (List.map _ (outcomes.flatMap _)).sum = (outcomes.map _).sum
  induction outcomes with
  | nil => rfl
  | cons first rest ih =>
      have hfirst : (((f first.2).outcomes.map fun second =>
            (first.1 * second.1, second.2)).map fun outcome =>
              outcome.1 * value outcome.2).sum =
          first.1 * (f first.2).mean value := by
        rw [mean, ← List.sum_map_mul_left, List.map_map]
        congr 2
        funext second
        exact mul_assoc first.1 second.1 _
      rw [List.flatMap_cons, List.map_append, List.sum_append, ih, hfirst,
        List.map_cons, List.sum_cons]

theorem mean_mul_left (x : Chances α) (c : ℚ) (value : α -> ℚ) :
    (x.mean fun a => c * value a) = c * x.mean value := by
  rw [mean, mean, ← List.sum_map_mul_left]
  congr 2
  funext outcome
  ring

theorem mean_add (x : Chances α) (value value' : α -> ℚ) :
    (x.mean fun a => value a + value' a) = x.mean value + x.mean value' := by
  rw [mean, mean, mean, ← List.sum_map_add]
  congr 2
  funext outcome
  ring

theorem mean_oneIn (n : Int) (value : Bool -> ℚ) :
    (oneIn n).mean value = 1 / n * value true + (1 - 1 / n) * value false := by
  show (1 / n * value true + ((1 - 1 / n) * value false + 0) : ℚ) = _
  rw [add_zero]

theorem Balanced.mean_const {x : Chances α} (hx : x.Balanced) (c : ℚ) :
    (x.mean fun _ => c) = c := by
  have hmul := x.mean_mul_left c fun _ => 1
  rw [hx.total, mul_one] at hmul
  exact hmul

/-!
## Distributions
-/

theorem balanced_pure (a : α) : (pure a : Chances α).Balanced := by
  constructor
  · intro outcome houtcome
    rw [List.mem_singleton.mp houtcome]
    exact zero_le_one
  · exact mean_pure a _

theorem Balanced.bind {x : Chances α} {f : α -> Chances β} (hx : x.Balanced)
    (hf : forall a, (f a).Balanced) : (x >>= f).Balanced := by
  constructor
  · intro outcome houtcome
    rcases List.mem_flatMap.mp houtcome with ⟨first, hfirst, hboth⟩
    rcases List.mem_map.mp hboth with ⟨second, hsecond, rfl⟩
    exact mul_nonneg (hx.nonneg first hfirst) ((hf first.2).nonneg second hsecond)
  · have htotal : (fun a => (f a).mean fun _ => 1) = fun _ => 1 := by
      funext a
      exact (hf a).total
    rw [mean_bind, htotal, hx.total]

theorem balanced_oneIn {n : Int} (hn : 1 ≤ n) : (oneIn n).Balanced := by
  have hone : (1 : ℚ) ≤ n := by exact_mod_cast hn
  have hpos : (0 : ℚ) < n := lt_of_lt_of_le zero_lt_one hone
  constructor
  · intro outcome houtcome
    rcases List.mem_cons.mp houtcome with rfl | hfalse
    · exact div_nonneg zero_le_one hpos.le
    · rw [List.mem_singleton.mp hfalse]
      exact sub_nonneg.mpr ((div_le_one hpos).mpr hone)
  · rw [mean_oneIn]
    ring

end Chances

end SphereFixtures
