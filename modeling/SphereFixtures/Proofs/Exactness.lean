import Mathlib
import SphereFixtures.Proofs.Signs

/-!
# Exact arithmetic at double precision

A whole number of at most 53 bits times a power of two is a double.  Sums and
products of such numbers are found by shifting zeros in and out of a mantissa, so
as long as they have 53 bits nothing is rounded.
-/

namespace SphereFixtures

namespace Binary64

open Float.Model Float.Model.UnpackedFloat

/-!
## Values
-/

/-- The number that a finite double stands for. -/
def value? : Binary64 -> Option ℚ
  | .finite negative mantissa exponent =>
      some (signed negative mantissa * (2 : ℚ) ^ exponent)
  | _ => none

/-- Whether a double is finite and stands for a number. -/
def StandsFor (x : Float) (q : ℚ) : Prop :=
  (ofFloat x).value? = some q

/-- An unpacked double as a double, read field by field. -/
def ofUnpacked : UnpackedFloat -> Binary64
  | .notANumber => .nan
  | .infinity sign => .infinite (sign.toBitVec == 1#1)
  | .zero sign => .finite (sign.toBitVec == 1#1) 0 leastExponent
  | .finite sign mantissa exponent _ =>
      .finite (sign.toBitVec == 1#1) mantissa exponent

theorem toBitVec_ofBitVec (b : BitVec 1) :
    ((Sign.ofBitVec b).toBitVec == 1#1) = (b.toNat == 1) := by
  revert b
  decide

theorem toNat_unpackMantissa (b : BitVec 64) :
    (@unpackMantissa .binary64 b).toNat = b.toNat % leadingBit := by
  show (BitVec.cast _ (BitVec.extractLsb 51 0 b)).toNat = _
  rw [BitVec.toNat_cast, BitVec.extractLsb_toNat, Nat.shiftRight_zero]
  rfl

theorem toNat_unpackExponent (b : BitVec 64) :
    (@unpackExponent .binary64 b).toNat = b.toNat >>> 52 % 2048 := by
  show (BitVec.cast _ (BitVec.extractLsb 62 52 b)).toNat = _
  rw [BitVec.toNat_cast, BitVec.extractLsb_toNat]

theorem toNat_unpackSign (b : BitVec 64) :
    (@unpackSign .binary64 b).toNat = b.toNat >>> 63 % 2 := by
  show (BitVec.cast _ (BitVec.extractLsb 63 63 b)).toNat = _
  rw [BitVec.toNat_cast, BitVec.extractLsb_toNat]

/-- The leading bit stands in front of the stored ones. -/
theorem toNat_one_append (m : BitVec 52) : (1#1 ++ m).toNat = leadingBit + m.toNat := by
  rw [BitVec.toNat_append, Nat.shiftLeft_eq, Nat.or_comm]
  exact (Nat.or_two_pow_eq_add_of_lt m.isLt).trans (Nat.add_comm _ _)

/-- Both views of a double read the same fields. -/
theorem ofBits_toNat (b : BitVec 64) :
    ofBits b.toNat = ofUnpacked (UnpackedFloat.unpack .binary64 b) := by
  have hall : @unpackExponent .binary64 b = -1#_ <->
      b.toNat >>> 52 % 2048 = 2047 := by
    rw [← toNat_unpackExponent, ← BitVec.toNat_inj]
    rfl
  have hnone : @unpackExponent .binary64 b = 0#_ <->
      b.toNat >>> 52 % 2048 = 0 := by
    rw [← toNat_unpackExponent, ← BitVec.toNat_inj]
    rfl
  have hfraction : @unpackMantissa .binary64 b = 0#_ <->
      b.toNat % leadingBit = 0 := by
    rw [← toNat_unpackMantissa, ← BitVec.toNat_inj]
    rfl
  have hsign := toBitVec_ofBitVec (@unpackSign .binary64 b)
  rw [toNat_unpackSign] at hsign
  simp only [ofBits, UnpackedFloat.unpack, hall, hnone, hfraction]
  split
  · split <;> simp only [ofUnpacked, hsign]
  · split
    · next hexponent =>
        split
        · next hzero => simp only [ofUnpacked, hsign, hzero]
        · simp only [ofUnpacked, hsign, toNat_unpackMantissa,
            toNat_unpackExponent, hexponent]
          rfl
    · next hexponent =>
        simp only [ofUnpacked, hsign, toNat_unpackExponent]
        congr 1
        · rw [← toNat_unpackMantissa]
          exact (toNat_one_append _).symm
        · show -1074 + ((b.toNat >>> 52 % 2048 - 1 : Nat) : Int) =
            (b.toNat >>> 52 % 2048 : Nat) - (1023 + 52)
          omega

theorem ofFloat_eq (x : Float) : ofFloat x = ofUnpacked x.toModel.unpack :=
  ofBits_toNat x.toBits.toBitVec

/-!
## Shifted mantissas
-/

theorem log2_mul_two_pow {n : Nat} (hn : 0 < n) (j : Nat) :
    Nat.log2 (n * 2 ^ j) = Nat.log2 n + j := by
  have hlow := Nat.mul_le_mul_right (2 ^ j) (Nat.log2_self_le hn.ne')
  have hhigh := Nat.mul_lt_mul_of_pos_right (Nat.lt_log2_self (n := n))
    (Nat.two_pow_pos j)
  rw [← Nat.pow_add] at hlow hhigh
  refine (Nat.log2_eq_iff (Nat.mul_pos hn (Nat.two_pow_pos j)).ne').mpr ⟨hlow, ?_⟩
  rwa [Nat.add_right_comm]

/-- Zeros that leave a mantissa leave no trace in its residual bits. -/
theorem shiftRight_mul_two_pow (n j : Nat) :
    ExtendedMantissa.ofMantissaAndAccuracy (n * 2 ^ j) .exact >>> j =
      ExtendedMantissa.ofMantissaAndAccuracy n .exact := by
  induction j generalizing n with
  | zero => rw [Nat.pow_zero, Nat.mul_one]; rfl
  | succ j ih =>
      have hstep (m : ExtendedMantissa) : m >>> (j + 1) = (m >>> j).shiftRightOne := rfl
      have hdouble : n * 2 ^ (j + 1) = n * 2 * 2 ^ j := by
        rw [Nat.pow_succ, Nat.mul_assoc, Nat.mul_comm 2]
      rw [hstep, hdouble, ih]
      simp [ExtendedMantissa.ofMantissaAndAccuracy, ExtendedMantissa.shiftRightOne]

/-- Of a number with more than 53 bits as many are shifted out as there are too
many of them. -/
theorem shiftToTargetExponent_mul_two_pow {m : Nat} (hm : Nat.log2 m = 52)
    (hpos : 0 < m) (j : Nat) {e : Int} (he : -1074 ≤ e + j) :
    shiftToTargetExponent .binary64 (m * 2 ^ j) e .exact =
      (ExtendedMantissa.ofMantissaAndAccuracy m .exact, e + j) := by
  have htarget : Format.binary64.targetExponent (totalExponent (m * 2 ^ j) e) =
      e + j := by
    rw [totalExponent, log2_mul_two_pow hpos, hm]
    simp only [Format.targetExponent, Format.mantissaBits, Format.minExponent]
    omega
  have hamount : (e + j - e).toNat = j := by omega
  rw [shiftToTargetExponent, htarget, shiftToExponent, hamount,
    shiftRight_mul_two_pow]

theorem roundWithAccuracy_mul_two_pow {m : Nat} (hm : Nat.log2 m = 52) (hpos : 0 < m)
    (j : Nat) {e : Int} (he : -1074 ≤ e + j) :
    roundWithAccuracy .binary64 .positive (m * 2 ^ j) e .exact =
      .finite .positive m (e + j) hpos := by
  have hagain := shiftToTargetExponent_mul_two_pow hm hpos 0 (e := e + j) (by omega)
  rw [Nat.pow_zero, Nat.mul_one, Nat.cast_zero, add_zero] at hagain
  have hrounded :
      (ExtendedMantissa.ofMantissaAndAccuracy m .exact).roundedMantissa = m := rfl
  simp only [roundWithAccuracy, shiftToTargetExponent_mul_two_pow hm hpos j he,
    hrounded, hagain]
  exact dif_neg hpos.ne'

/-- Writing more zeros lets the exponent go down. -/
theorem decreaseExponent_mul_two_pow (n : Nat) (e : Int) {j k : Nat} (h : j ≤ k) :
    decreaseExponent (n * 2 ^ j) (e - j) (e - k) = (n * 2 ^ k, e - k) := by
  have hamount : (e - j - (e - k)).toNat = k - j := by omega
  rw [decreaseExponent, hamount, Nat.shiftLeft_eq, Nat.mul_assoc, ← Nat.pow_add,
    Nat.add_sub_cancel' h, Int.sub_sub, ← Int.natCast_add, Nat.add_sub_cancel' h]

/-!
## Dyadic numbers
-/

/-- How far the leading bit of a number is from the first of 53 places. -/
def spare (n : Nat) : Nat :=
  52 - Nat.log2 n

/-- The number `n * 2 ^ e` as an unpacked double. -/
def dyadic (n : Nat) (e : Int) : UnpackedFloat :=
  if hn : n = 0 then .zero .positive
  else .finite .positive (n * 2 ^ spare n) (e - spare n)
    (Nat.mul_pos (Nat.pos_of_ne_zero hn) (Nat.two_pow_pos _))

variable {n : Nat} {e : Int}

theorem log2_add_spare (hn : 0 < n) (hbits : n < 2 ^ 53) :
    Nat.log2 n + spare n = 52 := by
  have hlog := (Nat.log2_lt hn.ne').mpr hbits
  rw [spare]
  omega

theorem dyadic_of_pos (hn : 0 < n) (e : Int) :
    dyadic n e = .finite .positive (n * 2 ^ spare n) (e - spare n)
      (Nat.mul_pos hn (Nat.two_pow_pos _)) :=
  dif_neg hn.ne'

theorem roundWithAccuracy_eq_dyadic (hn : 0 < n) (hbits : n < 2 ^ 53)
    (he : -1022 ≤ e) {j : Nat} (hj : spare n ≤ j) :
    roundWithAccuracy .binary64 .positive (n * 2 ^ j) (e - j) .exact = dyadic n e := by
  have hlog : Nat.log2 (n * 2 ^ spare n) = 52 := by
    rw [log2_mul_two_pow hn, log2_add_spare hn hbits]
  rcases Nat.exists_eq_add_of_le hj with ⟨k, rfl⟩
  have hspare : spare n ≤ 52 := Nat.sub_le _ _
  have hpos := Nat.mul_pos hn (Nat.two_pow_pos (spare n))
  rw [dyadic_of_pos hn, Nat.pow_add, ← Nat.mul_assoc,
    roundWithAccuracy_mul_two_pow hlog hpos k (by omega)]
  congr 1
  omega

theorem round_eq_dyadic (hn : 0 < n) (hbits : n < 2 ^ 53) (he : -1022 ≤ e) (j : Nat) :
    UnpackedFloat.round .binary64 .positive (n * 2 ^ j) (e - j) = dyadic n e := by
  have hsum := log2_add_spare hn hbits
  have htarget :
      Format.binary64.targetExponent (totalExponent (n * 2 ^ j) (e - j)) =
        e - spare n := by
    rw [totalExponent, log2_mul_two_pow hn]
    simp only [Format.targetExponent, Format.mantissaBits, Format.minExponent]
    omega
  rw [UnpackedFloat.round, htarget]
  rcases Nat.le_total j (spare n) with h | h
  · rw [decreaseExponent_mul_two_pow n e h]
    exact roundWithAccuracy_eq_dyadic hn hbits he le_rfl
  · have hamount : (e - j - (e - spare n)).toNat = 0 := by omega
    rw [decreaseExponent, hamount, Nat.shiftLeft_zero, Nat.cast_zero, sub_zero]
    exact roundWithAccuracy_eq_dyadic hn hbits he h

theorem normalize_eq_dyadic (hbits : n < 2 ^ 53) (he : -1022 ≤ e) (j : Nat) :
    normalize .binary64 (n * 2 ^ j : Nat) (e - j) .positive = dyadic n e := by
  rcases Nat.eq_zero_or_pos n with rfl | hn
  · rw [Nat.zero_mul]
    rfl
  · have hpos : 0 < n * 2 ^ j := Nat.mul_pos hn (Nat.two_pow_pos j)
    have hgt : compare ((n * 2 ^ j : Nat) : Int) 0 = .gt :=
      Int.compare_eq_gt.mpr (by exact_mod_cast hpos)
    rw [UnpackedFloat.normalize, hgt]
    exact round_eq_dyadic hn hbits he j

/-!
### Operations
-/

theorem add_dyadic {m : Nat} (hbits : m + n < 2 ^ 53) (he : -1022 ≤ e) :
    UnpackedFloat.add .binary64 (dyadic m e) (dyadic n e) = dyadic (m + n) e := by
  rcases Nat.eq_zero_or_pos m with rfl | hm
  · rw [Nat.zero_add]
    rcases Nat.eq_zero_or_pos n with rfl | hn
    · rfl
    · rw [dyadic_of_pos hn]
      rfl
  rcases Nat.eq_zero_or_pos n with rfl | hn
  · rw [Nat.add_zero, dyadic_of_pos hm]
    rfl
  -- both mantissas get as many zeros as the one that needs more of them
  have hmin : min (e - spare m) (e - spare n) =
      e - (max (spare m) (spare n) : Nat) := by omega
  have hsum : Sign.positive.apply ((m * 2 ^ max (spare m) (spare n) : Nat) : Int) +
      Sign.positive.apply ((n * 2 ^ max (spare m) (spare n) : Nat) : Int) =
        ((m + n) * 2 ^ max (spare m) (spare n) : Nat) := by
    rw [Nat.add_mul, Nat.cast_add]
    rfl
  rw [dyadic_of_pos hm, dyadic_of_pos hn, UnpackedFloat.add, hmin,
    decreaseExponent_mul_two_pow m e (le_max_left _ _),
    decreaseExponent_mul_two_pow n e (le_max_right _ _)]
  show normalize .binary64 (_ + _) _ .positive = _
  rw [hsum]
  exact normalize_eq_dyadic hbits he _

theorem mul_dyadic {m : Nat} {f : Int} (hbits : m * n < 2 ^ 53) (he : -1022 ≤ e + f) :
    UnpackedFloat.mul .binary64 (dyadic m e) (dyadic n f) = dyadic (m * n) (e + f) := by
  rcases Nat.eq_zero_or_pos m with rfl | hm
  · rw [Nat.zero_mul]
    rcases Nat.eq_zero_or_pos n with rfl | hn
    · rfl
    · rw [dyadic_of_pos hn]
      rfl
  rcases Nat.eq_zero_or_pos n with rfl | hn
  · rw [Nat.mul_zero, dyadic_of_pos hm]
    rfl
  have hpos : 0 < m * n := Nat.mul_pos hm hn
  have hroom : spare (m * n) ≤ spare m + spare n := by
    have hlog : Nat.log2 m ≤ Nat.log2 (m * n) :=
      (Nat.le_log2 hpos.ne').mpr
        ((Nat.log2_self_le hm.ne').trans (Nat.le_mul_of_pos_right m hn))
    simp only [spare]
    omega
  have hmantissa : m * 2 ^ spare m * (n * 2 ^ spare n) =
      m * n * 2 ^ (spare m + spare n) := by
    rw [Nat.pow_add]
    exact Nat.mul_mul_mul_comm _ _ _ _
  have hexponent : e - spare m + (f - spare n) =
      e + f - (spare m + spare n : Nat) := by omega
  rw [dyadic_of_pos hm, dyadic_of_pos hn, UnpackedFloat.mul, hmantissa, hexponent]
  exact roundWithAccuracy_eq_dyadic hpos hbits he hroom

/-- The leading bit of a normal double is not stored, and comes back from the
exponent. -/
theorem unpack_pack_finite {m : Nat} (hm : Nat.log2 m = 52) (hpos : 0 < m)
    (hlow : -1074 ≤ e) (hhigh : e ≤ 971) :
    (pack (.finite .positive m e hpos)).unpack = .finite .positive m e hpos := by
  have hrange := (Nat.log2_eq_iff hpos.ne').mp hm
  have hbiased : (BitVec.ofNat 11 (e + 1023 + 52).toNat).toNat =
      (e + 1023 + 52).toNat := by
    rw [BitVec.toNat_ofNat]
    exact Nat.mod_eq_of_lt (by omega)
  have hpacked : UnpackedFloat.pack .binary64 (.finite .positive m e hpos) =
      packComponents .binary64 .positive (BitVec.ofNat 11 (e + 1023 + 52).toNat)
        (BitVec.ofNat 52 m) := by
    have hsmall : ¬ 2 ^ 11 ≤ (e + 1023 + 52).toNat + 1 := by omega
    simp only [UnpackedFloat.pack]
    refine (if_neg hsmall).trans (if_pos ?_)
    rw [hm]
    rfl
  have hall : BitVec.ofNat 11 (e + 1023 + 52).toNat ≠ -1#11 := by
    rw [Ne, ← BitVec.toNat_inj, hbiased]
    show ¬ (e + 1023 + 52).toNat = 2047
    omega
  have hnone : BitVec.ofNat 11 (e + 1023 + 52).toNat ≠ 0#11 := by
    rw [Ne, ← BitVec.toNat_inj, hbiased]
    show ¬ (e + 1023 + 52).toNat = 0
    omega
  have hmantissa : (1#1 ++ BitVec.ofNat 52 m).toNat = m := by
    rw [toNat_one_append, BitVec.toNat_ofNat]
    show 2 ^ 52 + m % 2 ^ 52 = m
    omega
  have hexponent : ((BitVec.ofNat 11 (e + 1023 + 52).toNat).toNat : Int) -
      (1023 + 52) = e := by
    rw [hbiased]
    omega
  show UnpackedFloat.unpack .binary64
    (UnpackedFloat.pack .binary64 (.finite .positive m e hpos)) = _
  rw [hpacked]
  simp only [UnpackedFloat.unpack, unpackSign_packComponents, Sign.ofBitVec_toBitVec,
    unpackExponent_packComponents, unpackMantissa_packComponents]
  refine (if_neg hall).trans ((if_neg hnone).trans ?_)
  congr 1

/-- Dyadic numbers are normal doubles. -/
theorem unpack_pack_dyadic (hbits : n < 2 ^ 53) (hlow : -1022 ≤ e) (hhigh : e ≤ 971) :
    (pack (dyadic n e)).unpack = dyadic n e := by
  rcases Nat.eq_zero_or_pos n with rfl | hn
  · exact (rfl : (pack (.zero .positive)).unpack = .zero .positive)
  have hspare := log2_add_spare hn hbits
  rw [dyadic_of_pos hn]
  apply unpack_pack_finite
  · rw [log2_mul_two_pow hn, hspare]
  · omega
  · omega

/-!
## Doubles
-/

/-- Whether a double is the number `n * 2 ^ e`. -/
def IsDyadic (x : Float) (n : Nat) (e : Int) : Prop :=
  x.toModel.unpack = dyadic n e

theorem isDyadic_pack (hbits : n < 2 ^ 53) (hlow : -1022 ≤ e) (hhigh : e ≤ 971) :
    IsDyadic (Float.ofModel (pack (dyadic n e))) n e :=
  unpack_pack_dyadic hbits hlow hhigh

namespace IsDyadic

variable {x y : Float} {m : Nat} {f : Int}

theorem add (hx : IsDyadic x m e) (hy : IsDyadic y n e) (hbits : m + n < 2 ^ 53)
    (hlow : -1022 ≤ e) (hhigh : e ≤ 971) : IsDyadic (x + y) (m + n) e := by
  have hsum : x + y = Float.ofModel (pack (dyadic (m + n) e)) := by
    show Float.ofModel (pack (UnpackedFloat.add _ x.toModel.unpack y.toModel.unpack)) = _
    rw [hx, hy, add_dyadic hbits hlow]
  rw [hsum]
  exact isDyadic_pack hbits hlow hhigh

theorem mul (hx : IsDyadic x m e) (hy : IsDyadic y n f) (hbits : m * n < 2 ^ 53)
    (hlow : -1022 ≤ e + f) (hhigh : e + f ≤ 971) :
    IsDyadic (x * y) (m * n) (e + f) := by
  have hproduct : x * y = Float.ofModel (pack (dyadic (m * n) (e + f))) := by
    show Float.ofModel (pack (UnpackedFloat.mul _ x.toModel.unpack y.toModel.unpack)) = _
    rw [hx, hy, mul_dyadic hbits hlow]
  rw [hproduct]
  exact isDyadic_pack hbits hlow hhigh

/-- A dyadic number has the value that it is written with. -/
theorem standsFor (hx : IsDyadic x n e) : StandsFor x (n * 2 ^ e) := by
  rw [StandsFor, ofFloat_eq, hx]
  rcases Nat.eq_zero_or_pos n with rfl | hn
  · show some (((0 : Int) : ℚ) * 2 ^ leastExponent) = _
    rw [Int.cast_zero, zero_mul, Nat.cast_zero, zero_mul]
  · rw [dyadic_of_pos hn]
    show some (((n * 2 ^ spare n : Nat) : Int) * (2 : ℚ) ^ (e - spare n)) = _
    rw [zpow_sub₀ two_ne_zero, zpow_natCast, Int.cast_natCast, Nat.cast_mul,
      Nat.cast_pow, Nat.cast_ofNat]
    congr 1
    field_simp

end IsDyadic

theorem IsDyadic.standsFor_natCast {x : Float} (hx : IsDyadic x n 0) :
    StandsFor x n := by
  have hvalue := hx.standsFor
  rwa [zpow_zero, mul_one] at hvalue

theorem isDyadic_toFloat {word : UInt64} (hbits : word.toNat < 2 ^ 53) :
    IsDyadic word.toFloat word.toNat 0 := by
  have hunpacked : UnpackedFloat.ofUInt64 .binary64 word = dyadic word.toNat 0 := by
    have hnormalize := normalize_eq_dyadic hbits (e := 0) (by decide) 0
    rw [Nat.pow_zero, Nat.mul_one] at hnormalize
    exact hnormalize
  show (pack (UnpackedFloat.ofUInt64 .binary64 word)).unpack = _
  rw [hunpacked]
  exact unpack_pack_dyadic hbits (by decide) (by decide)

theorem isDyadic_natCast (hbits : n < 2 ^ 53) : IsDyadic (n : Float) n 0 := by
  have hfits : n.toUInt64.toNat = n :=
    UInt64.toNat_ofNat_of_lt (hbits.trans (by decide))
  have hword : IsDyadic n.toUInt64.toFloat n.toUInt64.toNat 0 :=
    isDyadic_toFloat (by rwa [hfits])
  have hone : IsDyadic Float.exactlyRepresentablePowersOfTen[0] 1 0 := rfl
  have hcast :
      (n : Float) = n.toUInt64.toFloat * Float.exactlyRepresentablePowersOfTen[0] :=
    dif_pos ⟨hbits, Nat.zero_le 22⟩
  rw [hfits] at hword
  have hproduct := hword.mul hone (by rwa [Nat.mul_one]) (by decide) (by decide)
  rw [Nat.mul_one] at hproduct
  rw [hcast]
  exact hproduct

end Binary64

end SphereFixtures
