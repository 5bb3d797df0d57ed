import Mathlib
import SphereFixtures.DoublePrecision

/-!
# Exact and rounded scalars

The reals are the scalars of exact arithmetic.  Equality of doubles is not
reflexive, but it is symmetric and transitive, and so is that of the reals.
-/

namespace SphereFixtures

/-!
## The reals
-/

noncomputable instance scalarReal : Scalar ℝ where
  decidableLT := inferInstance
  decidableLE := inferInstance
  pi := Real.pi
  abs x := |x|
  sqrt := Real.sqrt
  sin := Real.sin
  cos := Real.cos
  asin := Real.arcsin
  log := Real.log
  atan2 y x := Complex.arg ⟨x, y⟩
  hypot x y := Real.sqrt (x ^ 2 + y ^ 2)
  pow x y := x ^ y

namespace Scalar

theorem atMost_eq_min (bound x : ℝ) : atMost bound x = min x bound :=
  (min_def_lt x bound).symm

theorem atLeast_eq_max (bound x : ℝ) : atLeast bound x = max bound x :=
  (max_def_lt bound x).symm

theorem degreesToRadians_eq (x : ℝ) : degreesToRadians x = x * (Real.pi / 180) := by
  show x * (Real.pi / (180.0 : ℝ)) = _
  norm_num

theorem radiansToDegrees_eq (x : ℝ) : radiansToDegrees x = x * (180 / Real.pi) := by
  show x * ((180.0 : ℝ) / Real.pi) = _
  norm_num

theorem radiansToDegrees_mul (factor x : ℝ) :
    radiansToDegrees (factor * degreesToRadians x) = factor * x := by
  have hpi := Real.pi_ne_zero
  rw [radiansToDegrees_eq, degreesToRadians_eq]
  field_simp

theorem radiansToDegrees_strictMono : StrictMono (radiansToDegrees : ℝ -> ℝ) := by
  intro x y h
  have hunit : 0 < 180 / Real.pi := by positivity
  rw [radiansToDegrees_eq, radiansToDegrees_eq]
  exact mul_lt_mul_of_pos_right h hunit

end Scalar

/-!
## Equality of doubles
-/

namespace Binary64

open Float.Model

/-- A double is equal to itself, unless it is not a number, and the two zeros
are equal to each other. -/
theorem compare_eq_some_eq_iff (a b : UnpackedFloat) :
    a.compare b = some .eq <->
      a ≠ .notANumber ∧ (a = b ∨ exists s t, a = .zero s ∧ b = .zero t) := by
  cases a with
  | notANumber =>
      simp [UnpackedFloat.compare]
  | infinity s =>
      cases b with
      | infinity t =>
          cases s <;> cases t <;> simp [UnpackedFloat.compare] <;> decide
      | _ => cases s <;> simp [UnpackedFloat.compare]
  | zero s =>
      cases b with
      | zero t => simp [UnpackedFloat.compare]
      | notANumber => simp [UnpackedFloat.compare]
      | infinity t => cases t <;> simp [UnpackedFloat.compare]
      | finite t => cases t <;> simp [UnpackedFloat.compare]
  | finite s m e =>
      cases b with
      | finite t n f =>
          -- of two numbers with the same sign the exponents come first
          cases s <;> cases t <;>
            simp [UnpackedFloat.compare, Ordering.then_eq_eq, and_comm]
      | zero t => cases s <;> simp [UnpackedFloat.compare]
      | notANumber => simp [UnpackedFloat.compare]
      | infinity t => cases t <;> simp [UnpackedFloat.compare]

theorem beq_eq_true_iff (a b : Float) :
    (a == b) = true <->
      a.toModel.unpack.compare b.toModel.unpack = some .eq := by
  show (a.toModel.unpack.compare b.toModel.unpack == some .eq) = true <-> _
  exact beq_iff_eq

instance : PartialEquivBEq Float where
  symm := by
    intro a b hab
    rw [beq_eq_true_iff, compare_eq_some_eq_iff] at hab ⊢
    rcases hab with ⟨hnumber, heq | ⟨s, t, ha, hb⟩⟩
    · exact ⟨heq ▸ hnumber, Or.inl heq.symm⟩
    · exact ⟨by simp [hb], Or.inr ⟨t, s, hb, ha⟩⟩
  trans := by
    intro a b c hab hbc
    rw [beq_eq_true_iff, compare_eq_some_eq_iff] at hab hbc ⊢
    rcases hab with ⟨hnumber, heq | ⟨s, t, ha, hb⟩⟩
    · rw [heq]
      exact hbc
    · rcases hbc with ⟨_, heq | ⟨_, u, _, hc⟩⟩
      · exact ⟨hnumber, Or.inr ⟨s, t, ha, heq ▸ hb⟩⟩
      · exact ⟨hnumber, Or.inr ⟨s, u, ha, hc⟩⟩

end Binary64

end SphereFixtures
