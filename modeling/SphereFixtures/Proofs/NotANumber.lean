import SphereFixtures.Proofs.Signs

/-!
# Doubles that are not numbers

A double that is not a number compares with nothing, and neither does what is computed
from it.  Any comparison that holds is one of numbers, and a comparison that fails may
have failed for want of a number: a bound that must not be exceeded is kept by whatever
does not compare with it.
-/

namespace SphereFixtures

namespace Binary64

open Float.Model Float.Model.UnpackedFloat

variable {x y : Float}

/-!
## Comparisons
-/

theorem isNaN_iff_unpack : x.isNaN = true <-> x.toModel.unpack = .notANumber :=
  isNaN_iff

theorem compare_notANumber (a : UnpackedFloat) : a.compare .notANumber = none := by
  cases a with
  | infinity sign => cases sign <;> rfl
  | finite sign m e hm => cases sign <;> rfl
  | notANumber | zero => rfl

theorem not_lt_of_isNaN (h : x.isNaN = true) : ¬ x < y := by
  rw [isNaN_iff_unpack] at h
  rw [lt_iff_compare, h]
  simp [UnpackedFloat.compare]

theorem not_le_of_isNaN_left (h : x.isNaN = true) : ¬ x ≤ y := by
  rw [isNaN_iff_unpack] at h
  rw [le_iff_compare, h]
  simp [UnpackedFloat.compare]

theorem not_le_of_isNaN_right (h : y.isNaN = true) : ¬ x ≤ y := by
  rw [isNaN_iff_unpack] at h
  rw [le_iff_compare, h, compare_notANumber]
  simp

theorem isNaN_eq_false_of_le (h : x ≤ y) : x.isNaN = false ∧ y.isNaN = false := by
  rw [Bool.eq_false_iff, Bool.eq_false_iff]
  exact ⟨fun hx => not_le_of_isNaN_left hx h, fun hy => not_le_of_isNaN_right hy h⟩

/-!
## Products and quotients
-/

theorem unpack_pack_notANumber : (pack .notANumber).unpack = .notANumber :=
  unpack_packedNaN

theorem isNaN_mul_left (h : x.isNaN = true) (y : Float) : (x * y).isNaN = true := by
  rw [isNaN_iff_unpack] at h ⊢
  show (pack (UnpackedFloat.mul _ x.toModel.unpack y.toModel.unpack)).unpack = _
  rw [h]
  exact unpack_pack_notANumber

theorem isNaN_mul_right (x : Float) (h : y.isNaN = true) : (x * y).isNaN = true := by
  rw [isNaN_iff_unpack] at h ⊢
  show (pack (UnpackedFloat.mul _ x.toModel.unpack y.toModel.unpack)).unpack = _
  rw [h]
  cases x.toModel.unpack <;> exact unpack_pack_notANumber

theorem isNaN_div_left (h : x.isNaN = true) (y : Float) : (x / y).isNaN = true := by
  rw [isNaN_iff_unpack] at h ⊢
  show (pack (UnpackedFloat.div _ x.toModel.unpack y.toModel.unpack)).unpack = _
  rw [h]
  exact unpack_pack_notANumber

/-!
## Absolute values
-/

/-- What has been unpacked is unchanged by packing and unpacking it again. -/
theorem unpack_pack_unpack (b : BitVec 64) :
    UnpackedFloat.unpack .binary64
        (UnpackedFloat.pack .binary64 (UnpackedFloat.unpack .binary64 b)) =
      UnpackedFloat.unpack .binary64 b := by
  rw [pack_unpack]
  split
  · next h =>
      rw [isNaNBits, decide_eq_true_iff] at h
      rw [unpack_packedNaN]
      simp only [UnpackedFloat.unpack, if_pos h.left, if_neg h.right]
  · rfl

/-- The absolute value has the bits of the number, but for the sign. -/
theorem abs_unpack (b : BitVec 64) :
    (UnpackedFloat.unpack .binary64 b).abs =
      UnpackedFloat.unpack .binary64
        (packComponents .binary64 .positive (unpackExponent b) (unpackMantissa b)) := by
  simp only [UnpackedFloat.unpack, unpackSign_packComponents,
    unpackExponent_packComponents, unpackMantissa_packComponents, Sign.ofBitVec_toBitVec]
  split_ifs <;> rfl

theorem unpack_abs (x : Float) : x.abs.toModel.unpack = x.toModel.unpack.abs := by
  show UnpackedFloat.unpack .binary64 (UnpackedFloat.pack .binary64
    (UnpackedFloat.unpack .binary64 x.toModel.toBits.toBitVec).abs) =
      (UnpackedFloat.unpack .binary64 x.toModel.toBits.toBitVec).abs
  rw [abs_unpack, unpack_pack_unpack]

/-- Mantissas and exponents are compared the other way round. -/
theorem compare_swap (m n : Nat) (e f : Int) :
    (compare f e).then (compare n m) = ((compare e f).then (compare m n)).swap := by
  rw [Ordering.swap_then, ← Std.OrientedOrd.eq_swap, ← Std.OrientedOrd.eq_swap]

/-- An absolute value does not exceed a positive bound if the number lies between the
bound and its opposite, or if there is no number. -/
theorem not_compare_abs_lt_iff {m : Nat} {e : Int} (hm : 0 < m) (a : UnpackedFloat) :
    (UnpackedFloat.finite .positive m e hm).compare a.abs ≠ some .lt <->
      a = .notANumber ∨
        ((UnpackedFloat.finite .negative m e hm).compare a).any (·.isLE) = true ∧
          (a.compare (.finite .positive m e hm)).any (·.isLE) = true := by
  cases a with
  | notANumber => simp [UnpackedFloat.abs, UnpackedFloat.compare]
  | infinity sign => cases sign <;> simp [UnpackedFloat.abs, UnpackedFloat.compare]
  | zero sign => simp [UnpackedFloat.abs, UnpackedFloat.compare]
  | finite sign n f hn =>
      cases sign with
      | positive =>
          simp [UnpackedFloat.abs, UnpackedFloat.compare, compare_swap m n e f,
            Ordering.isGE_iff_ne_lt]
      | negative =>
          simp [UnpackedFloat.abs, UnpackedFloat.compare, Ordering.isGE_iff_ne_lt]

/-- A bound on the absolute value of a double. -/
theorem not_lt_abs_iff {bound opposite : Float} {m : Nat} {e : Int} (hm : 0 < m)
    (hbound : bound.toModel.unpack = .finite .positive m e hm)
    (hopposite : opposite.toModel.unpack = .finite .negative m e hm) (x : Float) :
    ¬ bound < x.abs <-> x.isNaN = true ∨ (opposite ≤ x ∧ x ≤ bound) := by
  rw [lt_iff_compare, le_iff_compare, le_iff_compare, unpack_abs, hbound, hopposite,
    isNaN_iff_unpack]
  exact not_compare_abs_lt_iff hm _

end Binary64

end SphereFixtures
