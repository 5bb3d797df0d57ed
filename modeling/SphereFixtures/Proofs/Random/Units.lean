import Mathlib
import SphereFixtures.Proofs.Exactness
import SphereFixtures.Proofs.Random.Counts

/-!
# Draws from the unit interval

A draw from the unit interval is a whole number over `2 ^ 53`.  The highest bits of
two words make the number, the bits behind them are not read, and what is computed on
the way has at most 53 bits.
-/

namespace SphereFixtures

open WordSource

/-!
## Quotients
-/

/-- The numbers with a quotient are a block as long as the divisor. -/
theorem count_div_eq {d i size : Nat} (hd : 0 < d) (hsize : (i + 1) * d ≤ size) :
    Nat.count (fun x => x / d = i) size = d := by
  rw [Nat.add_one_mul] at hsize
  have hblock : (Finset.range size).filter (fun x => x / d = i) =
      Finset.Ico (i * d) (i * d + d) := by
    ext x
    rw [Finset.mem_filter, Finset.mem_range, Finset.mem_Ico, Nat.div_eq_iff hd]
    omega
  rw [Nat.count_eq_card_filter_range, hblock, Nat.card_Ico, Nat.add_sub_cancel_left]

namespace Words

open Binary64

theorem pairs_and (p q : UInt32 -> Prop) :
    pairs (fun high low => p high ∧ q low) =
      Nat.card { w // p w } * Nat.card { w // q w } := by
  rw [pairs, Nat.card_congr Equiv.subtypeProdEquivProd, Nat.card_prod]

theorem pairs_or {p q : UInt32 -> UInt32 -> Prop}
    (h : forall high low, p high low -> ¬ q high low) :
    pairs (fun high low => p high low ∨ q high low) = pairs p + pairs q := by
  have hdisjoint : Disjoint { w : UInt32 × UInt32 | p w.1 w.2 } { w | q w.1 w.2 } :=
    Set.disjoint_left.mpr fun w => h w.1 w.2
  exact Set.ncard_union_eq hdisjoint

/-- The number of 53 bits in a draw from the unit interval. -/
def numerator (high low : UInt32) : Nat :=
  (high >>> 5).toNat * 2 ^ 26 + (low >>> 6).toNat

theorem toNat_shiftRight {k : UInt32} (hk : k.toNat < 32) (w : UInt32) :
    (w >>> k).toNat = w.toNat / 2 ^ k.toNat := by
  rw [UInt32.toNat_shiftRight, Nat.mod_eq_of_lt hk, Nat.shiftRight_eq_div_pow]

theorem toNat_shiftRight_lt {k : UInt32} (hk : k.toNat < 32) (w : UInt32) :
    (w >>> k).toNat < 2 ^ (32 - k.toNat) := by
  rw [toNat_shiftRight hk, Nat.div_lt_iff_lt_mul (Nat.two_pow_pos _), ← Nat.pow_add,
    Nat.sub_add_cancel hk.le]
  exact w.toNat_lt

theorem front_lt (high : UInt32) : (high >>> 5).toNat < 2 ^ 27 :=
  toNat_shiftRight_lt (by decide) high

theorem back_lt (low : UInt32) : (low >>> 6).toNat < 2 ^ 26 :=
  toNat_shiftRight_lt (by decide) low

theorem numerator_lt (high low : UInt32) : numerator high low < 2 ^ 53 := by
  have hhigh := front_lt high
  have hlow := back_lt low
  rw [numerator]
  omega

/-- The bits of a number of 53 bits can be read off its two parts. -/
theorem numerator_eq_iff {k : Nat} (high low : UInt32) :
    numerator high low = k <->
      high.toNat / 2 ^ 5 = k / 2 ^ 26 ∧ low.toNat / 2 ^ 6 = k % 2 ^ 26 := by
  have hlow := back_lt low
  have hfront : (high >>> 5).toNat = high.toNat / 2 ^ 5 :=
    toNat_shiftRight (by decide) high
  have hback : (low >>> 6).toNat = low.toNat / 2 ^ 6 :=
    toNat_shiftRight (by decide) low
  rw [numerator, ← hfront, ← hback]
  omega

theorem pairs_numerator {k : Nat} (hk : k < 2 ^ 53) :
    pairs (fun high low => numerator high low = k) = 2 ^ 11 := by
  simp only [numerator_eq_iff]
  rw [pairs_and, card_toNat fun x => x / 2 ^ 5 = k / 2 ^ 26,
    card_toNat fun x => x / 2 ^ 6 = k % 2 ^ 26,
    count_div_eq (Nat.two_pow_pos 5) (by omega),
    count_div_eq (Nat.two_pow_pos 6) (by omega), ← Nat.pow_add]

theorem pairs_numerator_lt {n : Nat} (hn : n ≤ 2 ^ 53) :
    pairs (fun high low => numerator high low < n) = n * 2 ^ 11 := by
  induction n with
  | zero =>
      have hnone : IsEmpty { w : UInt32 × UInt32 // numerator w.1 w.2 < 0 } :=
        ⟨fun w => Nat.not_lt_zero _ w.property⟩
      rw [Nat.zero_mul]
      exact Nat.card_of_isEmpty
  | succ n ih =>
      simp only [Nat.lt_succ_iff_lt_or_eq]
      rw [pairs_or fun _ _ => Nat.ne_of_lt, ih (by omega), pairs_numerator hn,
        Nat.succ_mul]

/-!
## Exactness
-/

section

variable (high low : UInt32)

theorem isDyadic_factor : IsDyadic 67108864.0 (2 ^ 26) 0 := rfl

theorem isDyadic_scale : IsDyadic (1.0 / 9007199254740992.0) 1 (-53) := rfl

theorem standsFor_scale : StandsFor (1.0 / 9007199254740992.0) (1 / 2 ^ 53) := by
  have hvalue := isDyadic_scale.standsFor
  rwa [Nat.cast_one, one_mul, zpow_neg, ← one_div] at hvalue

theorem isDyadic_word (w : UInt32) : IsDyadic w.toNat w.toNat 0 :=
  isDyadic_natCast (w.toNat_lt.trans (by decide))

theorem isDyadic_front :
    IsDyadic (((high >>> 5).toNat : Float) * 67108864.0)
      ((high >>> 5).toNat * 2 ^ 26) 0 := by
  have hbits := front_lt high
  exact (isDyadic_word (high >>> 5)).mul isDyadic_factor (by omega) (by decide)
    (by decide)

theorem isDyadic_numerator :
    IsDyadic (((high >>> 5).toNat : Float) * 67108864.0 + ((low >>> 6).toNat : Float))
      (numerator high low) 0 :=
  (isDyadic_front high).add (isDyadic_word (low >>> 6)) (numerator_lt high low)
    (by decide) (by decide)

theorem isDyadic_unit : IsDyadic (unit high low) (numerator high low) (-53) := by
  have hbits : numerator high low * 1 < 2 ^ 53 := by
    rw [Nat.mul_one]
    exact numerator_lt high low
  have hunit := (isDyadic_numerator high low).mul isDyadic_scale hbits (by decide)
    (by decide)
  rw [Nat.mul_one] at hunit
  exact hunit

/-- What the draw is in exact arithmetic. -/
theorem unit_eq : (unit high low : ℝ) = (numerator high low : ℝ) / 2 ^ 53 := by
  show (((high >>> 5).toNat : ℝ) * (67108864.0 : ℝ) + ((low >>> 6).toNat : ℝ)) *
    ((1.0 : ℝ) / (9007199254740992.0 : ℝ)) = _
  rw [numerator]
  push_cast
  norm_num [div_eq_mul_inv]

theorem unit_nonneg : 0 ≤ (unit high low : ℝ) := by
  rw [unit_eq]
  positivity

theorem unit_lt_one : (unit high low : ℝ) < 1 := by
  have hnumerator : (numerator high low : ℝ) < 2 ^ 53 := by
    exact_mod_cast numerator_lt high low
  rw [unit_eq, div_lt_one (by positivity)]
  exact hnumerator

theorem standsFor_unit :
    StandsFor (unit high low) ((numerator high low : ℚ) / 2 ^ 53) :=
  (isDyadic_unit high low).standsFor

/-- Draws are equal where their numbers of 53 bits are. -/
theorem standsFor_unit_iff (k : Nat) :
    StandsFor (unit high low) ((k : ℚ) / 2 ^ 53) <-> numerator high low = k := by
  have hvalue := standsFor_unit high low
  rw [StandsFor] at hvalue ⊢
  rw [hvalue, Option.some_inj, div_left_inj' (by positivity), Nat.cast_inj]

end

/-- The draws up to a limit are as many as the multiples of `2 ^ -53` up to it. -/
theorem pairs_unit_le {limit : ℝ} (hlimit : 0 ≤ limit) :
    pairs (fun high low => (unit high low : ℝ) ≤ limit) =
      min (2 ^ 53) (⌊2 ^ 53 * limit⌋₊ + 1) * 2 ^ 11 := by
  have hle (high low : UInt32) : (unit high low : ℝ) ≤ limit <->
      numerator high low < min (2 ^ 53) (⌊2 ^ 53 * limit⌋₊ + 1) := by
    rw [unit_eq, div_le_iff₀ (by positivity), mul_comm limit,
      ← Nat.le_floor_iff (by positivity), lt_min_iff, Nat.lt_succ_iff]
    exact (and_iff_right (numerator_lt high low)).symm
  simp only [hle]
  exact pairs_numerator_lt (min_le_left _ _)

/-- A draw from the unit interval takes two words.  What is computed from them are
whole numbers of at most 53 bits and, in the last step, such a number scaled by a
power of two, so each result is the exact one.  Of the multiples of `2 ^ -53` in the
interval each one is drawn by `2 ^ 11` pairs of words. -/
theorem unit_exact_and_even :
    (forall (σ : Type) [WordSource σ] (s : σ),
      (Draw.unit : Draw σ Float).run s =
        (unit (stream s 0) (stream s 1), skip 2 s)) ∧
    (forall high low : UInt32,
      let a : Nat := (high >>> 5).toNat
      let b : Nat := (low >>> 6).toNat
      let k : Nat := a * 2 ^ 26 + b
      a < 2 ^ 27 ∧ b < 2 ^ 26 ∧ k < 2 ^ 53 ∧
        StandsFor a a ∧ StandsFor b b ∧ StandsFor 67108864.0 (2 ^ 26 : Nat) ∧
        StandsFor (a * 67108864.0) (a * 2 ^ 26 : Nat) ∧
        StandsFor (a * 67108864.0 + b) k ∧
        StandsFor (1.0 / 9007199254740992.0) (1 / 2 ^ 53) ∧
        StandsFor (unit high low) (k / 2 ^ 53) ∧
        (unit high low : ℝ) = k / 2 ^ 53 ∧
        0 ≤ (k : ℚ) / 2 ^ 53 ∧ (k : ℚ) / 2 ^ 53 < 1) ∧
    (forall k : Nat, k < 2 ^ 53 ->
      pairs (fun high low => StandsFor (unit high low) (k / 2 ^ 53)) = 2 ^ 11) := by
  refine ⟨fun σ _ s => Draw.pair_apply unit s, ?_, ?_⟩
  · intro high low a b k
    have hk : (k : ℚ) < 2 ^ 53 := by exact_mod_cast numerator_lt high low
    exact ⟨front_lt high, back_lt low, numerator_lt high low,
      (isDyadic_word (high >>> 5)).standsFor_natCast,
      (isDyadic_word (low >>> 6)).standsFor_natCast,
      isDyadic_factor.standsFor_natCast, (isDyadic_front high).standsFor_natCast,
      (isDyadic_numerator high low).standsFor_natCast, standsFor_scale,
      standsFor_unit high low, unit_eq high low, by positivity,
      (div_lt_one (by positivity)).mpr hk⟩
  · intro k hk
    simp only [standsFor_unit_iff]
    exact pairs_numerator hk

/-- The greatest number is the last one below one, and it is drawn as often as any
other. -/
theorem unit_of_greatest_number :
    StandsFor (unit 0xFFFFFFFF 0xFFFFFFFF) ((2 ^ 53 - 1 : Nat) / 2 ^ 53) ∧
      pairs (fun high low => StandsFor (unit high low) ((2 ^ 53 - 1 : Nat) / 2 ^ 53)) =
        2 ^ 11 := by
  rcases unit_exact_and_even with ⟨_, hexact, heven⟩
  rcases hexact 0xFFFFFFFF 0xFFFFFFFF with ⟨_, _, _, _, _, _, _, _, _, hunit, _⟩
  exact ⟨hunit, heven (2 ^ 53 - 1) (by decide)⟩

end Words

end SphereFixtures
