import Mathlib.Algebra.Group.Units.Basic
import Mathlib.Data.UInt
import SphereFixtures.Random.Seed

/-!
# Changes of words that lose nothing

Seeds are spread over a pool, the pool over a window, and a window over outputs
by shifts, exclusive ors and multiplications of words.  Each of these changes
can be undone, so different words stay different.
-/

namespace SphereFixtures

namespace Words

/-!
## Bits under a mask
-/

theorem or_and (v w mask : UInt32) :
    (v ||| w) &&& mask = (v &&& mask) ||| (w &&& mask) := by
  apply UInt32.toNat_inj.mp
  simp [Nat.and_or_distrib_right]

theorem xor_and (v w mask : UInt32) :
    (v ^^^ w) &&& mask = (v &&& mask) ^^^ (w &&& mask) := by
  apply UInt32.toNat_inj.mp
  simp [Nat.and_xor_distrib_right]

/-!
## Exclusive or with a shifted word
-/

/-- A change that respects exclusive or and keeps no word but zero. -/
structure Shifting (f : UInt32 -> UInt32) : Prop where
  xor : forall v w, f (v ^^^ w) = f v ^^^ f w
  eq_zero : forall w, f w = w -> w = 0

theorem Shifting.xor_injective {f : UInt32 -> UInt32} (hf : Shifting f) :
    Function.Injective fun w => w ^^^ f w := by
  intro v w h
  -- the difference of two words with one result is a word that is kept
  have hkept : f (v ^^^ w) = v ^^^ w := by
    have hzero : v ^^^ f v ^^^ (w ^^^ f w) = 0 :=
      UInt32.xor_eq_zero_iff.mpr h
    apply UInt32.xor_eq_zero_iff.mp
    rw [hf.xor, ← hzero]
    ac_rfl
  exact UInt32.xor_eq_zero_iff.mp (hf.eq_zero _ hkept)

theorem shifting_right {s : UInt32} (hs : s.toNat % 32 ≠ 0) :
    Shifting (· >>> s) := by
  constructor
  · intro v w
    exact UInt32.shiftRight_xor
  · intro w h
    by_contra hne
    have hpos : 0 < w.toNat := by
      rw [Nat.pos_iff_ne_zero, ne_eq, ← UInt32.toNat_zero, UInt32.toNat_inj]
      exact hne
    have hlt : w.toNat / 2 ^ (s.toNat % 32) < w.toNat :=
      Nat.div_lt_self hpos (Nat.one_lt_two_pow hs)
    have heq := congrArg UInt32.toNat h
    rw [UInt32.toNat_shiftRight, Nat.shiftRight_eq_div_pow] at heq
    omega

theorem shifting_left_and {s : UInt32} (hs : s.toNat % 32 ≠ 0)
    (mask : UInt32) : Shifting fun w => (w <<< s) &&& mask := by
  constructor
  · intro v w
    rw [UInt32.shiftLeft_xor, xor_and]
  · intro w h
    -- every bit is one from further below
    have hbits : forall i, w.toNat.testBit i = false := by
      intro i
      induction i using Nat.strongRecOn with
      | ind i ih =>
          rw [← h, UInt32.toNat_and, UInt32.toNat_shiftLeft, Nat.testBit_and,
            Nat.testBit_mod_two_pow, Nat.testBit_shiftLeft]
          by_cases hi : s.toNat % 32 ≤ i
          · rw [ih (i - s.toNat % 32) (by omega)]
            simp
          · simp [hi]
    apply UInt32.toNat_inj.mp
    apply Nat.eq_of_testBit_eq
    intro i
    rw [hbits i]
    simp

end Words

/-!
## Hashes
-/

namespace SeedPool

open Words

theorem fold_injective : Function.Injective fold :=
  (shifting_right (by decide)).xor_injective

theorem mix_left_injective (y : UInt32) :
    Function.Injective fun x => mix x y := by
  intro v w h
  have hunit : IsUnit (0xca01f9dd : UInt32) :=
    IsUnit.of_mul_eq_one 0x16ea2675 (by decide)
  exact hunit.mul_left_cancel ((UInt32.sub_left_inj _).mp (fold_injective h))

theorem hash_injective {factor salt : UInt32} (h : IsUnit (salt * factor)) :
    Function.Injective fun w => ((hash factor w).run salt).1 := by
  intro v w heq
  have hmul : (v ^^^ salt) * (salt * factor) = (w ^^^ salt) * (salt * factor) :=
    fold_injective heq
  exact (UInt32.xor_left_inj salt).mp (h.mul_right_cancel hmul)

end SeedPool

/-!
## Words of the generator
-/

namespace Twister

open Words

theorem temper_injective : Function.Injective temper :=
  (shifting_right (s := 18) (by decide)).xor_injective.comp <|
    (shifting_left_and (s := 15) (by decide) 0xefc60000).xor_injective.comp <|
      (shifting_left_and (s := 7) (by decide) 0x9d2c5680).xor_injective.comp <|
        (shifting_right (s := 11) (by decide)).xor_injective

theorem and_one_eq (w : UInt32) : (w &&& 1 == 1) = decide (w.toNat % 2 = 1) := by
  rw [beq_eq_decide, decide_eq_decide, ← UInt32.toNat_inj, UInt32.toNat_and]
  exact Nat.and_one_is_mod w.toNat ▸ Iff.rfl

/-- The highest bit after a twist is the lowest one before it, which a shift
alone would lose. -/
theorem testBit_twist (w : UInt32) :
    (twist w).toNat.testBit 31 = decide (w.toNat % 2 = 1) := by
  have hshift : (w.toNat >>> 1).testBit 31 = false := by
    rw [Nat.testBit_shiftRight]
    exact Nat.testBit_lt_two_pow w.toNat_lt
  rw [twist, UInt32.toNat_xor, Nat.testBit_xor, UInt32.toNat_shiftRight,
    and_one_eq]
  by_cases hodd : w.toNat % 2 = 1
  · simp [hshift, hodd]
    decide
  · simp [hshift, hodd]

theorem twist_injective : Function.Injective twist := by
  intro v w h
  have hparity : decide (v.toNat % 2 = 1) = decide (w.toNat % 2 = 1) := by
    rw [← testBit_twist, ← testBit_twist, h]
  rw [twist, twist, and_one_eq, and_one_eq, hparity, UInt32.xor_left_inj] at h
  have hhalf : v.toNat / 2 = w.toNat / 2 := by
    have hshift := congrArg UInt32.toNat h
    rw [UInt32.toNat_shiftRight, UInt32.toNat_shiftRight] at hshift
    exact hshift
  apply UInt32.toNat_inj.mp
  rw [decide_eq_decide] at hparity
  omega

theorem join_and_high (x y : UInt32) :
    join x y &&& 0x80000000 = x &&& 0x80000000 := by
  have hnone : (0x7fffffff &&& 0x80000000 : UInt32) = 0 := by decide
  rw [join, or_and, UInt32.and_assoc, UInt32.and_assoc, hnone]
  simp

theorem join_and_low (x y : UInt32) :
    join x y &&& 0x7fffffff = y &&& 0x7fffffff := by
  have hnone : (0x80000000 &&& 0x7fffffff : UInt32) = 0 := by decide
  rw [join, or_and, UInt32.and_assoc, UInt32.and_assoc, hnone]
  simp

theorem join_self (w : UInt32) : join w w = w := by
  have hall : (0x80000000 ||| 0x7fffffff : UInt32) = -1 := by decide
  rw [join, UInt32.and_comm w, UInt32.and_comm w, ← or_and, hall]
  simp

/-- A word is known from the others when it is joined with one in front of it
and with one behind it. -/
theorem eq_of_join_eq {x x' y y' z z' : UInt32} (hfront : join x y = join x' y')
    (hbehind : join y z = join y' z') : y = y' := by
  have hlow : y &&& 0x7fffffff = y' &&& 0x7fffffff := by
    rw [← join_and_low x, hfront, join_and_low]
  have hhigh : y &&& 0x80000000 = y' &&& 0x80000000 := by
    rw [← join_and_high y z, hbehind, join_and_high]
  rw [← join_self y, ← join_self y', join, join, hlow, hhigh]

end Twister

end SphereFixtures
