import Mathlib
import SphereFixtures.Fractal.EdgeCount
import SphereFixtures.Proofs.Rounding

/-!
# Rounded logarithms

A logarithm rounds up to a whole number when it is short of it by at most half the
spacing of doubles.  Its argument is then at least a power of two times a root of a
half.  Roots are compared by squaring: squares that are rounded down and squares that
are rounded up enclose the exact ones.
-/

namespace SphereFixtures

open Binary64

namespace EdgeCount

/-!
## Repeated squares
-/

section

variable (unit : Nat)

/-- A number squared several times, each time rounded down to a multiple of the
unit. -/
def squaredDown : Nat -> Nat -> Nat
  | 0, x => x
  | n + 1, x => squaredDown n (x * x / unit)

/-- A number squared several times, each time rounded up to a multiple of the unit. -/
def squaredUp : Nat -> Nat -> Nat
  | 0, x => x
  | n + 1, x => squaredUp n (x * x / unit + 1)

theorem squaredDown_le (n x : Nat) :
    (squaredDown unit n x : ℝ) / unit ≤ ((x : ℝ) / unit) ^ 2 ^ n := by
  induction n generalizing x with
  | zero => rw [squaredDown, pow_zero, pow_one]
  | succ n ih =>
      have hrounded : ((x * x / unit : Nat) : ℝ) ≤ x * x / unit := by
        rw [← Nat.cast_mul]
        exact Nat.cast_div_le
      rw [squaredDown, pow_succ', pow_mul]
      refine (ih _).trans (pow_le_pow_left₀ (by positivity) ?_ _)
      rw [div_pow, sq, sq, ← div_div]
      exact div_le_div_of_nonneg_right hrounded (Nat.cast_nonneg unit)

variable {unit} (hunit : 0 < unit)

include hunit

theorem le_squaredUp (n x : Nat) :
    ((x : ℝ) / unit) ^ 2 ^ n ≤ (squaredUp unit n x : ℝ) / unit := by
  have hpos : (0 : ℝ) < unit := by exact_mod_cast hunit
  induction n generalizing x with
  | zero => rw [squaredUp, pow_zero, pow_one]
  | succ n ih =>
      have hrounded : (x : ℝ) * x / unit ≤ (x * x / unit + 1 : Nat) := by
        rw [div_le_iff₀ hpos, mul_comm _ (unit : ℝ)]
        exact_mod_cast (Nat.lt_mul_div_succ (x * x) hunit).le
      rw [squaredUp, pow_succ', pow_mul]
      refine le_trans (pow_le_pow_left₀ (by positivity) ?_ _) (ih _)
      rw [div_pow, sq, sq, ← div_div]
      exact div_le_div_of_nonneg_right hrounded hpos.le

end

/-!
## Roots of a half
-/

/-- Squared as often as the root was taken, a root of a half is a half. -/
theorem rpow_le_iff (n : Nat) {x : ℝ} (hx : 0 ≤ x) :
    (2 : ℝ) ^ (-(1 / 2 ^ n) : ℝ) ≤ x <-> 1 / 2 ≤ x ^ 2 ^ n := by
  have hroot : ((2 : ℝ) ^ (-(1 / 2 ^ n) : ℝ)) ^ 2 ^ n = 1 / 2 := by
    rw [← Real.rpow_mul_natCast zero_le_two, Nat.cast_pow, Nat.cast_ofNat, neg_mul,
      one_div_mul_cancel (by positivity), Real.rpow_neg_one, one_div]
  rw [← hroot]
  exact (pow_le_pow_iff_left₀ (by positivity) hx (by positivity)).symm

/-- The drop of a power and the next number lie on either side of the exact one, which
squaring tells of what they leave. -/
theorem squared_powerDrop : forall e, e < 53 ->
    2 ^ 127 ≤ squaredDown (2 ^ 128) (53 - e) ((2 ^ 53 - powerDrop e) * 2 ^ 75) ∧
      squaredUp (2 ^ 128) (53 - e) ((2 ^ 53 - (powerDrop e + 1)) * 2 ^ 75) < 2 ^ 127 := by
  decide +kernel

theorem cast_mul_div_two_pow (c : Nat) :
    ((c * 2 ^ 75 : Nat) : ℝ) / (2 ^ 128 : Nat) = c / 2 ^ 53 := by
  push_cast
  ring

theorem cast_two_pow_div : ((2 ^ 127 : Nat) : ℝ) / (2 ^ 128 : Nat) = 1 / 2 := by
  norm_num

theorem half_le_of_squaredDown {n c : Nat}
    (h : 2 ^ 127 ≤ squaredDown (2 ^ 128) n (c * 2 ^ 75)) :
    1 / 2 ≤ ((c : ℝ) / 2 ^ 53) ^ 2 ^ n := by
  rw [← cast_mul_div_two_pow, ← cast_two_pow_div]
  refine le_trans ?_ (squaredDown_le _ n _)
  exact div_le_div_of_nonneg_right (Nat.cast_le.mpr h) (Nat.cast_nonneg _)

theorem lt_half_of_squaredUp {n c : Nat}
    (h : squaredUp (2 ^ 128) n (c * 2 ^ 75) < 2 ^ 127) :
    ((c : ℝ) / 2 ^ 53) ^ 2 ^ n < 1 / 2 := by
  rw [← cast_mul_div_two_pow, ← cast_two_pow_div]
  refine (le_squaredUp (Nat.two_pow_pos 128) n _).trans_lt ?_
  exact div_lt_div_of_pos_right (Nat.cast_lt.mpr h) (Nat.cast_pos.mpr (Nat.two_pow_pos 128))

/-- The drop of a power is exact: it is the greatest number of units that leaves the
power at least. -/
theorem rpow_le_iff_le_powerDrop {e : Nat} (he : e < 53) (c : Nat) :
    (2 : ℝ) ^ (-(1 / 2 ^ (53 - e)) : ℝ) ≤ c / 2 ^ 53 <-> 2 ^ 53 ≤ c + powerDrop e := by
  rcases squared_powerDrop e he with ⟨hdown, hup⟩
  rw [rpow_le_iff _ (by positivity)]
  constructor
  · intro h
    by_contra hless
    have hle : c ≤ 2 ^ 53 - (powerDrop e + 1) := by omega
    refine absurd h (not_le.mpr (lt_of_le_of_lt ?_ (lt_half_of_squaredUp hup)))
    gcongr
  · intro h
    have hle : 2 ^ 53 - powerDrop e ≤ c := by omega
    refine (half_le_of_squaredDown hdown).trans ?_
    gcongr

/-!
## Reached whole numbers
-/

theorem logReaches_iff (q k : Nat) :
    logReaches q k = true <->
      2 ^ k * 2 ^ 53 ≤ q * 2 ^ 53 + sliver k * 2 ^ k := by
  unfold logReaches
  rw [decide_eq_true_iff, Nat.shiftLeft_eq, Nat.shiftLeft_eq, Nat.shiftLeft_eq,
    Nat.one_mul, Nat.pow_add]

theorem logReaches_mono {q r : Nat} (h : q ≤ r) {k : Nat}
    (hq : logReaches q k = true) : logReaches r k = true := by
  rw [logReaches_iff] at hq ⊢
  have hscaled : q * 2 ^ 53 ≤ r * 2 ^ 53 := Nat.mul_le_mul_right _ h
  exact hq.trans (Nat.add_le_add_right hscaled _)

theorem logReaches_two_pow (k : Nat) : logReaches (2 ^ k) k = true := by
  rw [logReaches_iff]
  exact Nat.le_add_right _ _

theorem four_mul_powerDrop_le : forall e, e < 53 -> 4 * powerDrop e ≤ 3 * 2 ^ e := by
  decide +kernel

theorem twenty_two_le_powerDrop : forall e, e < 53 -> 5 ≤ e -> 22 ≤ powerDrop e := by
  decide +kernel

/-- A logarithm rounds up from less than three quarters of its own value, in
units of the spacing at one. -/
theorem four_mul_sliver_le {k : Nat} (hk : k ≠ 0) : 4 * sliver k ≤ 3 * k :=
  calc 4 * sliver k
      ≤ 3 * 2 ^ min (Nat.log2 k) 52 := four_mul_powerDrop_le _ (by omega)
    _ ≤ 3 * 2 ^ Nat.log2 k :=
        Nat.mul_le_mul_left 3 (Nat.pow_le_pow_right (by decide) (Nat.min_le_left _ _))
    _ ≤ 3 * k := Nat.mul_le_mul_left 3 (Nat.log2_self_le hk)

theorem sliver_lt {k : Nat} (hk : k ≠ 0) : sliver k < k := by
  have := four_mul_sliver_le hk
  omega

theorem four_mul_sliver_le_two_pow (k : Nat) : 4 * sliver k ≤ 3 * 2 ^ 52 :=
  (four_mul_powerDrop_le _ (by omega)).trans
    (Nat.mul_le_mul_left 3 (Nat.pow_le_pow_right (by decide) (Nat.min_le_right _ _)))

theorem sliver_le_twenty_two : forall k, k ≤ 49 -> sliver k ≤ 22 := by
  decide +kernel

theorem twenty_two_le_sliver {k : Nat} (hk : 32 ≤ k) : 22 ≤ sliver k := by
  have hlog : 5 ≤ Nat.log2 k := (Nat.le_log2 (by omega)).mpr hk
  exact twenty_two_le_powerDrop _ (by omega) (by omega)

/-!
## Logarithms
-/

section

variable {q k : Nat} (hk : k ≠ 0) (hless : k < 2 ^ 53)

include hk hless

theorem log2_lt_of_lt : Nat.log2 k < 53 :=
  (Nat.log2_lt hk).mpr hless

theorem sliver_eq_powerDrop : sliver k = powerDrop (Nat.log2 k) := by
  have hlog := log2_lt_of_lt hk hless
  rw [sliver, Nat.min_eq_left (by omega)]

/-- A number of 53 bits reaches a whole number when its logarithm is short of it by at
most half the spacing of doubles. -/
theorem logReaches_iff_le_logb (hq : q ≠ 0) (hbits : 2 ^ k ∣ q * 2 ^ 53) :
    logReaches q k = true <->
      (k : ℝ) - 2 ^ Nat.log2 k / 2 ^ 53 ≤ Real.logb 2 q := by
  have hlog := log2_lt_of_lt hk hless
  rcases hbits with ⟨c, hc⟩
  have hpos : 0 < c := by
    apply Nat.pos_of_ne_zero
    rintro rfl
    rw [Nat.mul_zero] at hc
    exact absurd hc (Nat.mul_ne_zero hq (Nat.two_pow_pos 53).ne')
  have hfraction : (0 : ℝ) < c / 2 ^ 53 := by positivity
  have hcast : (q : ℝ) = 2 ^ k * (c / 2 ^ 53) := by
    rw [← mul_div_assoc, eq_div_iff (by positivity)]
    exact_mod_cast hc
  have hspacing : (2 : ℝ) ^ Nat.log2 k / 2 ^ 53 = 1 / 2 ^ (53 - Nat.log2 k) := by
    rw [div_eq_div_iff (by positivity) (by positivity), one_mul, ← pow_add,
      Nat.add_sub_of_le hlog.le]
  have hlogarithm : Real.logb 2 q = k + Real.logb 2 (c / 2 ^ 53) := by
    rw [hcast, Real.logb_mul (by positivity) hfraction.ne', Real.logb_pow,
      Real.logb_self_eq_one one_lt_two, mul_one]
  rw [hlogarithm, hspacing, sub_eq_add_neg, add_le_add_iff_left,
    Real.le_logb_iff_rpow_le one_lt_two hfraction, rpow_le_iff_le_powerDrop hlog,
    logReaches_iff, hc, sliver_eq_powerDrop hk hless, Nat.mul_comm (powerDrop _),
    ← Nat.mul_add, Nat.mul_le_mul_left_iff (Nat.two_pow_pos k)]

/-- The logarithm of a rounded number reaches a whole number when it is short of it by
at most half the spacing of doubles. -/
theorem logReaches_nearestWhole_iff (hq : nearestWhole q ≠ 0) :
    logReaches (nearestWhole q) k = true <->
      (k : ℝ) - 2 ^ Nat.log2 k / 2 ^ 53 ≤ Real.logb 2 (nearestWhole q) := by
  rcases Nat.exists_eq_succ_of_ne_zero hk with ⟨l, rfl⟩
  rcases le_or_gt (2 ^ l) (nearestWhole q) with hle | hlt
  · exact logReaches_iff_le_logb hk hless hq (two_pow_dvd_nearestWhole hle)
  · -- the logarithm is short of the number before
    apply iff_of_false
    · have hsliver := four_mul_sliver_le_two_pow (l + 1)
      have hnumber : nearestWhole q * 2 ^ 53 < 2 ^ l * 2 ^ 53 :=
        Nat.mul_lt_mul_of_pos_right hlt (Nat.two_pow_pos 53)
      have hrest : 2 ^ l * (2 * sliver (l + 1)) ≤ 2 ^ l * 2 ^ 53 :=
        Nat.mul_le_mul_left _ (by omega)
      rw [logReaches_iff, Nat.pow_succ]
      linarith
    · have hshort : Real.logb 2 (nearestWhole q) < l := by
        rw [Real.logb_lt_iff_lt_rpow one_lt_two (by positivity), Real.rpow_natCast]
        exact_mod_cast hlt
      have hspacing : (2 : ℝ) ^ Nat.log2 (l + 1) / 2 ^ 53 ≤ 1 := by
        rw [div_le_one (by positivity)]
        exact pow_le_pow_right₀ one_le_two (log2_lt_of_lt hk hless).le
      rw [not_le, Nat.succ_eq_add_one, Nat.cast_succ]
      linarith

end

end EdgeCount

end SphereFixtures
