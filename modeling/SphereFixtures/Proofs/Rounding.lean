import Mathlib
import SphereFixtures.Binary64

/-!
# Whole numbers at double precision

Rounding a whole number to 53 bits keeps the order of numbers, leaves the powers
of two as they are, and moves a number by less than one part in `2 ^ 53`.
-/

namespace SphereFixtures

namespace Binary64

/-- The multiple of a unit that is nearest to a number, as a number of units.  A
half goes to the even neighbour. -/
def nearestMultiple (unit q : Nat) : Nat :=
  if unit < 2 * (q % unit) ∨ 2 * (q % unit) = unit ∧ q / unit % 2 = 1 then
    q / unit + 1
  else q / unit

/-- The last of 53 bits. -/
def unitOf (q : Nat) : Nat :=
  2 ^ (Nat.log2 q + 1 - 53)

theorem nearestWhole_eq (q : Nat) :
    nearestWhole q = nearestMultiple (unitOf q) q * unitOf q := by
  unfold nearestWhole nearestMultiple unitOf
  simp only [Nat.shiftRight_eq_div_pow, Nat.shiftLeft_eq, Nat.one_mul,
    Bool.or_eq_true, Bool.and_eq_true, decide_eq_true_eq, beq_iff_eq]

theorem nearestMultiple_mul {unit : Nat} (hunit : 0 < unit) (n : Nat) :
    nearestMultiple unit (n * unit) = n := by
  unfold nearestMultiple
  rw [Nat.mul_mod_left, Nat.mul_div_cancel n hunit, if_neg (by omega)]

theorem div_le_nearestMultiple (unit q : Nat) :
    q / unit ≤ nearestMultiple unit q := by
  unfold nearestMultiple
  split <;> omega

theorem nearestMultiple_le_succ (unit q : Nat) :
    nearestMultiple unit q ≤ q / unit + 1 := by
  unfold nearestMultiple
  split <;> omega

theorem nearestMultiple_mono (unit : Nat) {a b : Nat} (h : a ≤ b) :
    nearestMultiple unit a ≤ nearestMultiple unit b := by
  rcases Nat.lt_or_eq_of_le (Nat.div_le_div_right (c := unit) h) with hlt | heq
  · exact (nearestMultiple_le_succ unit a).trans
      ((Nat.succ_le_of_lt hlt).trans (div_le_nearestMultiple unit b))
  · have hrest : a % unit ≤ b % unit := by
      have ha := Nat.div_add_mod a unit
      have hb := Nat.div_add_mod b unit
      rw [heq] at ha
      omega
    unfold nearestMultiple
    rw [heq]
    split <;> split <;> omega

/-- The rounding error is at most half a unit. -/
theorem nearestMultiple_close {unit : Nat} (hunit : 0 < unit) (q : Nat) :
    2 * (nearestMultiple unit q * unit) ≤ 2 * q + unit ∧
      2 * q ≤ 2 * (nearestMultiple unit q * unit) + unit := by
  have hq := Nat.div_add_mod q unit
  have hrest := Nat.mod_lt q hunit
  rw [Nat.mul_comm] at hq
  unfold nearestMultiple
  split
  · rw [Nat.add_one_mul (q / unit)]
    omega
  · omega

theorem nearestMultiple_two_pow {e j : Nat} (h : e ≤ j) :
    nearestMultiple (2 ^ e) (2 ^ j) * 2 ^ e = 2 ^ j := by
  have hpow : 2 ^ j = 2 ^ (j - e) * 2 ^ e := by
    rw [← Nat.pow_add, Nat.sub_add_cancel h]
  rw [hpow, nearestMultiple_mul (Nat.two_pow_pos e)]

theorem nearestWhole_mono {a b : Nat} (h : a ≤ b) :
    nearestWhole a ≤ nearestWhole b := by
  rw [nearestWhole_eq, nearestWhole_eq]
  rcases Nat.eq_zero_or_pos a with rfl | ha
  · exact Nat.zero_le _
  have hb : b ≠ 0 := by omega
  have hlog : Nat.log2 a ≤ Nat.log2 b :=
    (Nat.le_log2 hb).mpr ((Nat.log2_self_le ha.ne').trans h)
  rcases Nat.lt_or_eq_of_le hlog with hlt | heq
  · -- a power of two lies between the two numbers and is its own rounding
    have hpow : a ≤ 2 ^ Nat.log2 b :=
      ((Nat.log2_lt ha.ne').mp hlt).le
    calc nearestMultiple (unitOf a) a * unitOf a
        ≤ nearestMultiple (unitOf a) (2 ^ Nat.log2 b) * unitOf a :=
          Nat.mul_le_mul_right _ (nearestMultiple_mono _ hpow)
      _ = 2 ^ Nat.log2 b := nearestMultiple_two_pow (by omega)
      _ = nearestMultiple (unitOf b) (2 ^ Nat.log2 b) * unitOf b :=
          (nearestMultiple_two_pow (by omega)).symm
      _ ≤ nearestMultiple (unitOf b) b * unitOf b :=
          Nat.mul_le_mul_right _
            (nearestMultiple_mono _ (Nat.log2_self_le hb))
  · rw [unitOf, unitOf, heq]
    exact Nat.mul_le_mul_right _ (nearestMultiple_mono _ h)

theorem nearestWhole_two_pow (j : Nat) : nearestWhole (2 ^ j) = 2 ^ j := by
  rw [nearestWhole_eq, unitOf, Nat.log2_two_pow]
  exact nearestMultiple_two_pow (by omega)

theorem nearestWhole_of_lt {q : Nat} (h : q < 2 ^ 53) : nearestWhole q = q := by
  rcases Nat.eq_zero_or_pos q with rfl | hpos
  · rfl
  have hlog : Nat.log2 q < 53 := (Nat.log2_lt hpos.ne').mpr h
  have hunit : unitOf q = 1 := by
    rw [unitOf, Nat.sub_eq_zero_of_le hlog]
    rfl
  have hone := nearestMultiple_mul Nat.one_pos q
  rw [Nat.mul_one] at hone
  rw [nearestWhole_eq, hunit, Nat.mul_one, hone]

/-- The rounding error is less than one part in `2 ^ 53`. -/
theorem nearestWhole_close (q : Nat) :
    nearestWhole q * 2 ^ 53 ≤ q * 2 ^ 53 + q ∧
      q * 2 ^ 53 ≤ nearestWhole q * 2 ^ 53 + q := by
  rcases Nat.lt_or_ge q (2 ^ 53) with h | h
  · rw [nearestWhole_of_lt h]
    exact ⟨Nat.le_add_right _ _, Nat.le_add_right _ _⟩
  · have hpos : q ≠ 0 := by omega
    have hlog : 53 ≤ Nat.log2 q := (Nat.le_log2 hpos).mpr h
    have hunit : unitOf q * 2 ^ 52 ≤ q := by
      have hexponent : Nat.log2 q + 1 - 53 + 52 = Nat.log2 q := by omega
      rw [unitOf, ← Nat.pow_add, hexponent]
      exact Nat.log2_self_le hpos
    have hpositive : 0 < unitOf q := Nat.two_pow_pos _
    have hclose := nearestMultiple_close hpositive q
    rw [nearestWhole_eq]
    omega

/-!
## Bits
-/

theorem unitOf_dvd_nearestWhole (q : Nat) : unitOf q ∣ nearestWhole q := by
  rw [nearestWhole_eq]
  exact Nat.dvd_mul_left _ _

theorem nearestWhole_le_two_pow (q : Nat) : nearestWhole q ≤ 2 ^ (Nat.log2 q + 1) := by
  rw [← nearestWhole_two_pow]
  exact nearestWhole_mono Nat.lt_log2_self.le

/-- Of a rounded number only the first 53 bits are set. -/
theorem two_pow_dvd_nearestWhole {q k : Nat} (h : 2 ^ k ≤ nearestWhole q) :
    2 ^ (k + 1) ∣ nearestWhole q * 2 ^ 53 := by
  have hle : k ≤ Nat.log2 q + 1 :=
    (Nat.pow_le_pow_iff_right (by decide)).mp (h.trans (nearestWhole_le_two_pow q))
  rcases Nat.lt_or_eq_of_le hle with hlt | rfl
  · have hunit : 2 ^ (k + 1) ∣ unitOf q * 2 ^ 53 := by
      rw [unitOf, ← Nat.pow_add]
      exact Nat.pow_dvd_pow 2 (by omega)
    exact hunit.trans (Nat.mul_dvd_mul_right (unitOf_dvd_nearestWhole q) _)
  · rw [Nat.le_antisymm (nearestWhole_le_two_pow q) h, ← Nat.pow_add]
    exact Nat.pow_dvd_pow 2 (by omega)

end Binary64

end SphereFixtures
