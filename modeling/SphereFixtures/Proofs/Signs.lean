import SphereFixtures.Proofs.Scalars

/-!
# Signs of sums, products, quotients and powers

Rounding may lose a number that is close to zero, but it never changes a sign.
So what is computed from numbers that are not negative is not negative either,
exactly or at double precision, unless it is not a number.
-/

namespace SphereFixtures

namespace Scalar

/-- Whether a number is not below zero.  One that is not comparable with zero
is not. -/
def NotNegative {α : Type} [Scalar α] (x : α) : Prop :=
  ¬ x < (0.0 : α)

/-- What arithmetic does with signs, where numbers need not be comparable. -/
structure SignLaws (α : Type) [Scalar α] : Prop where
  natCast (n : Nat) : NotNegative (n : α)
  add {x y : α} : NotNegative x -> NotNegative y -> NotNegative (x + y)
  mul {x y : α} : NotNegative x -> NotNegative y -> NotNegative (x * y)
  div {x y : α} : NotNegative x -> 0.0 < y -> NotNegative (x / y)
  pow {x y : α} : NotNegative x -> NotNegative y -> NotNegative (pow x y)
  of_pos {x : α} : 0.0 < x -> NotNegative x
  pos_of_le {x y : α} : 0.0 < x -> x ≤ y -> 0.0 < y
  le_of_lt {x y : α} : x < y -> x ≤ y
  zero_le_of_lt {x y : α} : NotNegative x -> x < y -> 0.0 ≤ x
  one_pos : (0.0 : α) < 1.0
  two_pos : (0.0 : α) < 2.0
  two_le_two : (2.0 : α) ≤ 2.0
  turn_pos : (0.0 : α) < 2.0 * pi
  factor_pos : (0.0 : α) < 67108864.0
  divisor_pos : (0.0 : α) < 9007199254740992.0

theorem signLaws_real : SignLaws ℝ := by
  have hzero : (0.0 : ℝ) = 0 := by norm_num
  refine
    { natCast := ?_, add := ?_, mul := ?_, div := ?_, pow := ?_, of_pos := ?_,
      pos_of_le := ?_, le_of_lt := le_of_lt, zero_le_of_lt := ?_, one_pos := ?_,
      two_pos := ?_, two_le_two := le_rfl, turn_pos := ?_, factor_pos := ?_,
      divisor_pos := ?_ }
  all_goals simp only [NotNegative, hzero, not_lt]
  · intro n
    exact Nat.cast_nonneg n
  · intro x y hx hy
    exact add_nonneg hx hy
  · intro x y hx hy
    exact mul_nonneg hx hy
  · intro x y hx hy
    exact div_nonneg hx hy.le
  · intro x y hx hy
    exact Real.rpow_nonneg hx y
  · intro x hx
    exact hx.le
  · intro x y hx hxy
    exact hx.trans_le hxy
  · intro x y hx _
    exact hx
  · norm_num
  · norm_num
  · show (0 : ℝ) < 2.0 * Real.pi
    positivity
  · norm_num
  · norm_num

end Scalar

/-!
## Doubles
-/

namespace Binary64

open Float.Model Float.Model.UnpackedFloat

/-- The unpacked doubles that are not below zero. -/
inductive NotBelowZero : UnpackedFloat -> Prop where
  | notANumber : NotBelowZero .notANumber
  | infinity : NotBelowZero (.infinity .positive)
  | zero (sign : Sign) : NotBelowZero (.zero sign)
  | finite (m : Nat) (e : Int) (hm : 0 < m) :
      NotBelowZero (.finite .positive m e hm)

/-- The unpacked doubles above zero. -/
inductive AboveZero : UnpackedFloat -> Prop where
  | infinity : AboveZero (.infinity .positive)
  | finite (m : Nat) (e : Int) (hm : 0 < m) :
      AboveZero (.finite .positive m e hm)

theorem compare_zero_ne_lt_iff (x : UnpackedFloat) :
    x.compare (.zero .positive) ≠ some .lt <-> NotBelowZero x := by
  constructor
  · intro h
    cases x with
    | notANumber => exact .notANumber
    | zero sign => exact .zero sign
    | infinity sign =>
        cases sign with
        | positive => exact .infinity
        | negative => exact absurd rfl h
    | finite sign m e hm =>
        cases sign with
        | positive => exact .finite m e hm
        | negative => exact absurd rfl h
  · intro h
    cases h <;> simp [UnpackedFloat.compare]

theorem zero_compare_eq_lt_iff (x : UnpackedFloat) :
    UnpackedFloat.compare (.zero .positive) x = some .lt <-> AboveZero x := by
  constructor
  · intro h
    cases x with
    | notANumber => cases h
    | zero sign => cases h
    | infinity sign =>
        cases sign with
        | positive => exact .infinity
        | negative => cases h
    | finite sign m e hm =>
        cases sign with
        | positive => exact .finite m e hm
        | negative => cases h
  · intro h
    cases h <;> rfl

theorem AboveZero.notBelowZero {x : UnpackedFloat} (h : AboveZero x) :
    NotBelowZero x := by
  cases h with
  | infinity => exact .infinity
  | finite m e hm => exact .finite m e hm

theorem AboveZero.of_le {x y : UnpackedFloat} (hx : AboveZero x)
    (hxy : (x.compare y).any (·.isLE) = true) : AboveZero y := by
  cases y with
  | notANumber => cases hx <;> cases hxy
  | zero sign => cases hx <;> cases hxy
  | infinity sign =>
      cases sign with
      | positive => exact .infinity
      | negative => cases hx <;> cases hxy
  | finite sign m e hm =>
      cases sign with
      | positive => exact .finite m e hm
      | negative => cases hx <;> cases hxy

/-- A number that is below another one can be compared with zero. -/
theorem NotBelowZero.zero_le_of_lt {x y : UnpackedFloat} (hx : NotBelowZero x)
    (hxy : x.compare y = some .lt) :
    (UnpackedFloat.compare (.zero .positive) x).any (·.isLE) = true := by
  cases hx with
  | notANumber => cases hxy
  | infinity => rfl
  | zero sign => rfl
  | finite m e hm => rfl

/-!
### Rounding
-/

theorem notBelowZero_roundWithAccuracy (spec : Format) (m : Nat) (e : Int)
    (accuracy : Accuracy) :
    NotBelowZero (roundWithAccuracy spec .positive m e accuracy) := by
  simp only [roundWithAccuracy]
  split
  · exact .zero _
  · exact .finite _ _ _

theorem notBelowZero_normalize (spec : Format) {m : Int} (hm : 0 ≤ m) (e : Int) :
    NotBelowZero (normalize spec m e .positive) := by
  rw [UnpackedFloat.normalize]
  split
  · next h =>
      rw [compare_lt_iff_lt] at h
      omega
  · exact .zero _
  · exact notBelowZero_roundWithAccuracy _ _ _ _

theorem notBelowZero_unpack_packComponents (e : BitVec 11) (m : BitVec 52) :
    NotBelowZero
      (UnpackedFloat.unpack .binary64 (packComponents .binary64 .positive e m)) := by
  simp only [UnpackedFloat.unpack, unpackSign_packComponents, Sign.ofBitVec_toBitVec]
  split
  · split
    · exact .infinity
    · exact .notANumber
  · split
    · split
      · exact .zero _
      · exact .finite _ _ _
    · exact .finite _ _ _

theorem notBelowZero_unpack_pack {x : UnpackedFloat} (h : NotBelowZero x) :
    NotBelowZero (pack x).unpack := by
  cases h with
  | notANumber => exact notBelowZero_unpack_packComponents _ _
  | infinity => exact notBelowZero_unpack_packComponents _ _
  | zero sign =>
      cases sign with
      | positive => exact notBelowZero_unpack_packComponents _ _
      | negative => exact .zero .negative
  | finite m e hm =>
      show NotBelowZero (UnpackedFloat.unpack _ (UnpackedFloat.pack _ _))
      simp only [UnpackedFloat.pack]
      split
      · exact notBelowZero_unpack_packComponents _ _
      · split
        · exact notBelowZero_unpack_packComponents _ _
        · exact notBelowZero_unpack_packComponents _ _

/-!
### Operations
-/

section

variable (spec : Format) {x y : UnpackedFloat}

theorem notBelowZero_add (hx : NotBelowZero x) (hy : NotBelowZero y) :
    NotBelowZero (UnpackedFloat.add spec x y) := by
  cases hx with
  | notANumber => exact .notANumber
  | infinity => cases hy <;> constructor
  | zero sign =>
      cases hy with
      | notANumber => exact .notANumber
      | infinity => exact .infinity
      -- zeros of different signs add to the positive one
      | zero sign' => cases sign <;> cases sign' <;> exact .zero _
      | finite m e hm => exact .finite m e hm
  | finite m e hm =>
      cases hy with
      | notANumber => exact .notANumber
      | infinity => exact .infinity
      | zero sign => exact .finite m e hm
      | finite m' e' hm' =>
          apply notBelowZero_normalize
          exact Int.add_nonneg (Int.natCast_nonneg _) (Int.natCast_nonneg _)

theorem notBelowZero_mul (hx : NotBelowZero x) (hy : NotBelowZero y) :
    NotBelowZero (UnpackedFloat.mul spec x y) := by
  cases hx with
  | notANumber => exact .notANumber
  | infinity => cases hy <;> constructor
  | zero sign => cases hy <;> constructor
  | finite m e hm =>
      cases hy with
      | notANumber => exact .notANumber
      | infinity => exact .infinity
      | zero sign => exact .zero _
      | finite m' e' hm' => exact notBelowZero_roundWithAccuracy _ _ _ _

theorem notBelowZero_div (hx : NotBelowZero x) (hy : AboveZero y) :
    NotBelowZero (UnpackedFloat.div spec x y) := by
  cases hx with
  | notANumber => exact .notANumber
  | infinity => cases hy <;> constructor
  | zero sign => cases hy <;> constructor
  | finite m e hm =>
      cases hy with
      | infinity => exact .zero _
      | finite m' e' hm' => exact notBelowZero_roundWithAccuracy _ _ _ _

theorem notBelowZero_ofScientific (m : Nat) (e : Int) :
    NotBelowZero (UnpackedFloat.ofScientific spec m e) := by
  rw [UnpackedFloat.ofScientific]
  split
  · exact .zero _
  · split
    · exact .infinity
    · split
      · exact .zero _
      · split
        · exact notBelowZero_mul spec (.finite _ _ _) (.finite _ _ _)
        · exact notBelowZero_div spec (.finite _ _ _) (.finite _ _ _)

end

theorem unpack_zero : (0.0 : Float).toModel.unpack = .zero .positive := rfl

theorem lt_iff_compare (x y : Float) :
    x < y <-> x.toModel.unpack.compare y.toModel.unpack = some .lt := by
  show decide ((x.toModel.unpack.compare y.toModel.unpack == some .lt) = true) =
    true <-> _
  rw [decide_eq_true_iff, beq_iff_eq]

theorem le_iff_compare (x y : Float) :
    x ≤ y <-> (x.toModel.unpack.compare y.toModel.unpack).any (·.isLE) = true := by
  show decide ((x.toModel.unpack.compare y.toModel.unpack).any (·.isLE) = true) =
    true <-> _
  rw [decide_eq_true_iff]

theorem not_lt_zero_iff (x : Float) :
    ¬ x < (0.0 : Float) <-> NotBelowZero x.toModel.unpack := by
  rw [lt_iff_compare, unpack_zero]
  exact compare_zero_ne_lt_iff _

theorem zero_lt_iff (x : Float) :
    (0.0 : Float) < x <-> AboveZero x.toModel.unpack := by
  rw [lt_iff_compare, unpack_zero]
  exact zero_compare_eq_lt_iff _

/-- A packed result that is not below zero is a double that is not. -/
theorem not_pack_lt_zero {x : UnpackedFloat} (h : NotBelowZero x) :
    ¬ Float.ofModel (pack x) < (0.0 : Float) :=
  (not_lt_zero_iff _).mpr (notBelowZero_unpack_pack h)

theorem not_add_lt_zero {x y : Float} (hx : ¬ x < (0.0 : Float))
    (hy : ¬ y < (0.0 : Float)) : ¬ x + y < (0.0 : Float) := by
  rw [not_lt_zero_iff] at hx hy
  exact not_pack_lt_zero (notBelowZero_add _ hx hy)

theorem not_mul_lt_zero {x y : Float} (hx : ¬ x < (0.0 : Float))
    (hy : ¬ y < (0.0 : Float)) : ¬ x * y < (0.0 : Float) := by
  rw [not_lt_zero_iff] at hx hy
  exact not_pack_lt_zero (notBelowZero_mul _ hx hy)

theorem not_div_lt_zero {x y : Float} (hx : ¬ x < (0.0 : Float))
    (hy : (0.0 : Float) < y) : ¬ x / y < (0.0 : Float) := by
  rw [not_lt_zero_iff] at hx
  rw [zero_lt_iff] at hy
  exact not_pack_lt_zero (notBelowZero_div _ hx hy)

theorem not_lt_zero_of_pos {x : Float} (hx : (0.0 : Float) < x) :
    ¬ x < (0.0 : Float) := by
  rw [zero_lt_iff] at hx
  exact (not_lt_zero_iff x).mpr hx.notBelowZero

theorem not_toFloat_lt_zero (n : UInt64) : ¬ n.toFloat < (0.0 : Float) :=
  not_pack_lt_zero (notBelowZero_normalize _ (Int.natCast_nonneg _) 0)

theorem not_ofNat_lt_zero (n : Nat) : ¬ Float.ofNat n < (0.0 : Float) := by
  show ¬ Float.ofScientific n false 0 < (0.0 : Float)
  rw [Float.ofScientific]
  split
  · apply not_mul_lt_zero (not_toFloat_lt_zero _)
    -- the power of ten is the first one of a table
    show ¬ Float.exactlyRepresentablePowersOfTen[0] < (0.0 : Float)
    decide +kernel
  · exact not_pack_lt_zero (notBelowZero_ofScientific .binary64 n _)

theorem pos_of_pos_of_le {x y : Float} (hx : (0.0 : Float) < x) (hxy : x ≤ y) :
    (0.0 : Float) < y := by
  rw [zero_lt_iff] at hx ⊢
  exact hx.of_le ((le_iff_compare x y).mp hxy)

theorem le_of_lt_double {x y : Float} (h : x < y) : x ≤ y := by
  rw [lt_iff_compare] at h
  rw [le_iff_compare, h]
  rfl

theorem zero_le_of_lt_double {x y : Float} (hx : ¬ x < (0.0 : Float))
    (hxy : x < y) : (0.0 : Float) ≤ x := by
  rw [not_lt_zero_iff] at hx
  rw [lt_iff_compare] at hxy
  rw [le_iff_compare, unpack_zero]
  exact hx.zero_le_of_lt hxy

end Binary64

/-!
## Laws for doubles
-/

namespace Scalar

open Binary64

/-- Doubles with any function for powers. -/
abbrev doubles (pow : Float -> Float -> Float) : Scalar Float :=
  { scalarFloat with pow := pow }

example : doubles Float.pow = scalarFloat := rfl

/-- A power is the only operation of the laws that is not computed exactly and
then rounded, so its sign has to be known. -/
theorem signLaws_doubles {pow : Float -> Float -> Float}
    (hpow : forall x y, ¬ x < (0.0 : Float) -> ¬ y < (0.0 : Float) ->
      ¬ pow x y < (0.0 : Float)) :
    @SignLaws Float (doubles pow) := by
  refine @SignLaws.mk Float (doubles pow) not_ofNat_lt_zero not_add_lt_zero
    not_mul_lt_zero not_div_lt_zero (hpow _ _) not_lt_zero_of_pos
    pos_of_pos_of_le le_of_lt_double zero_le_of_lt_double ?_ ?_ ?_ ?_ ?_ ?_
  · show (0.0 : Float) < 1.0
    decide +kernel
  · show (0.0 : Float) < 2.0
    decide +kernel
  · show (2.0 : Float) ≤ 2.0
    decide +kernel
  · show (0.0 : Float) < 2.0 * 3.141592653589793
    decide +kernel
  · show (0.0 : Float) < 67108864.0
    decide +kernel
  · show (0.0 : Float) < 9007199254740992.0
    decide +kernel

end Scalar

end SphereFixtures
