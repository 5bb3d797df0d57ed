import SphereFixtures.Proofs.Geometry.Handedness

/-!
# Frames around an axis

The second axis of a frame is the product of the third one with a template.  The axis
of the largest coordinate decides which coordinate of the template is one, so the
template is never close to the third axis, and neither is the product close to a
coordinate axis.
-/

namespace SphereFixtures

/-- A number is zero if it is a multiple, by a factor that is smaller, of a number that
is not larger. -/
theorem eq_zero_of_mul_eq_mul {p q x y : ℝ} (hfactor : |q| < |p|) (hle : |y| ≤ |x|)
    (h : p * x = q * y) : x = 0 := by
  by_contra hx
  have hpos : 0 < |x| := abs_pos.mpr hx
  have hless : |q| * |y| < |p| * |x| :=
    (mul_le_mul_of_nonneg_left hle (abs_nonneg q)).trans_lt
      (mul_lt_mul_of_pos_right hfactor hpos)
  rw [← abs_mul, ← abs_mul, h] at hless
  exact lt_irrefl _ hless

/-- The vector of length one along an axis. -/
def Axis.direction {α : Type} [Scalar α] (axis : Axis) : Vec3 α :=
  Vec3.zero.set axis 1.0

namespace Vec3

/-!
## Largest coordinates
-/

/-- The coordinate along an axis. -/
def along (v : Vec3 ℝ) : Axis -> ℝ
  | .x => v.x
  | .y => v.y
  | .z => v.z

theorem outranks_iff (candidate largest : ℝ) :
    outranks candidate largest = true <-> largest < candidate := by
  simp [outranks]

theorem along_le_largestAxis (v : Vec3 ℝ) (axis : Axis) :
    v.along axis ≤ v.along v.largestAxis := by
  rw [largestAxis]
  simp only [outranks_iff]
  split_ifs <;> cases axis <;> simp only [along] <;> linarith

variable (a b : Vec3 ℝ)

theorem along_map_abs (axis : Axis) : (a.map abs).along axis = |a.along axis| := by
  cases axis <;> rfl

theorem eq_zero_of_along (h : forall axis, a.along axis = 0) : a = zero := by
  rw [zero_eq]
  exact ext (h .x) (h .y) (h .z)

theorem map_abs_neg : (-a).map abs = a.map abs := by
  simp only [map, neg_eq, abs_neg]

/-!
## Skew vectors
-/

/-- Whether two coordinates are not zero. -/
def Skew : Prop :=
  (a.x ≠ 0 ∧ a.y ≠ 0) ∨ (a.y ≠ 0 ∧ a.z ≠ 0) ∨ (a.z ≠ 0 ∧ a.x ≠ 0)

variable {a b}

theorem Skew.not_parallel (h : a.Skew) (axis : Axis) : ¬ axis.direction.Parallel a := by
  rintro ⟨s, rfl⟩
  rw [Skew] at h
  cases axis <;> simp [Axis.direction, zero_eq, set, map] at h

theorem Skew.ne_zero (h : a.Skew) : a ≠ zero := by
  rintro rfl
  rw [zero_eq] at h
  simp [Skew] at h

theorem Skew.normalize (h : a.Skew) : a.normalize.Skew := by
  have hnorm := (norm_pos_iff a).mpr h.ne_zero
  rw [normalize_eq, if_neg h.ne_zero]
  simp only [Skew, divBy_eq, ne_eq, div_eq_zero_iff, hnorm.ne', or_false]
  exact h

/-- A vector times the template for its largest coordinate is no axis: what is left
beside the largest coordinate is too small to cancel it. -/
theorem skew_cross {axis : Axis} (hlargest : forall other, |a.along other| ≤ |a.along axis|)
    (hne : a.along axis ≠ 0) :
    (a.cross (skewDirection.set axis.previous 1.0)).Skew := by
  have hx := hlargest .x
  have hy := hlargest .y
  have hz := hlargest .z
  -- a coordinate of the product is zero only if the largest coordinate is a small
  -- multiple of another one
  cases axis with
  | x =>
      show Skew
        { x := a.y * (1.0 : ℝ) - a.z * (0.0053 : ℝ)
          y := a.z * (0.012 : ℝ) - a.x * (1.0 : ℝ)
          z := a.x * (0.0053 : ℝ) - a.y * (0.012 : ℝ) }
      have hsecond : a.z * (0.012 : ℝ) - a.x * (1.0 : ℝ) ≠ 0 := by
        intro h
        have hmultiple : (1 : ℝ) * a.x = 0.012 * a.z := by linarith
        exact hne (eq_zero_of_mul_eq_mul (by norm_num) hz hmultiple)
      by_cases hfirst : a.y * (1.0 : ℝ) - a.z * (0.0053 : ℝ) = 0
      · refine Or.inr (Or.inl ⟨hsecond, ?_⟩)
        intro h
        have hmultiple : (0.0053 : ℝ) * a.x = 0.012 * 0.0053 * a.z := by linarith
        exact hne (eq_zero_of_mul_eq_mul (by norm_num) hz hmultiple)
      · exact Or.inl ⟨hfirst, hsecond⟩
  | y =>
      show Skew
        { x := a.y * (0.00457 : ℝ) - a.z * (0.0053 : ℝ)
          y := a.z * (1.0 : ℝ) - a.x * (0.00457 : ℝ)
          z := a.x * (0.0053 : ℝ) - a.y * (1.0 : ℝ) }
      have hthird : a.x * (0.0053 : ℝ) - a.y * (1.0 : ℝ) ≠ 0 := by
        intro h
        have hmultiple : (1 : ℝ) * a.y = 0.0053 * a.x := by linarith
        exact hne (eq_zero_of_mul_eq_mul (by norm_num) hx hmultiple)
      by_cases hsecond : a.z * (1.0 : ℝ) - a.x * (0.00457 : ℝ) = 0
      · refine Or.inr (Or.inr ⟨hthird, ?_⟩)
        intro h
        have hmultiple : (0.00457 : ℝ) * a.y = 0.0053 * 0.00457 * a.x := by linarith
        exact hne (eq_zero_of_mul_eq_mul (by norm_num) hx hmultiple)
      · exact Or.inr (Or.inl ⟨hsecond, hthird⟩)
  | z =>
      show Skew
        { x := a.y * (0.00457 : ℝ) - a.z * (1.0 : ℝ)
          y := a.z * (0.012 : ℝ) - a.x * (0.00457 : ℝ)
          z := a.x * (1.0 : ℝ) - a.y * (0.012 : ℝ) }
      refine Or.inl ⟨?_, ?_⟩
      · intro h
        have hmultiple : (1 : ℝ) * a.z = 0.00457 * a.y := by linarith
        exact hne (eq_zero_of_mul_eq_mul (by norm_num) hy hmultiple)
      · intro h
        have hmultiple : (0.012 : ℝ) * a.z = 0.00457 * a.x := by linarith
        exact hne (eq_zero_of_mul_eq_mul (by norm_num) hx hmultiple)

/-!
## Orthogonal vectors
-/

theorem skew_cross_template (ha : a ≠ zero) :
    (a.cross
      (skewDirection.set (a.map Scalar.abs).largestAxis.previous 1.0)).Skew := by
  have hlargest (other : Axis) :
      |a.along other| ≤ |a.along (a.map Scalar.abs).largestAxis| := by
    rw [← along_map_abs, ← along_map_abs]
    exact along_le_largestAxis _ other
  apply skew_cross hlargest
  intro hzero
  apply ha
  apply eq_zero_of_along
  intro axis
  have hle := hlargest axis
  rw [hzero, abs_zero] at hle
  exact abs_nonpos_iff.mp hle

theorem skew_orthogonal (ha : a ≠ zero) : a.orthogonal.Skew :=
  (skew_cross_template ha).normalize

theorem norm_orthogonal (ha : a ≠ zero) : a.orthogonal.norm = 1 :=
  norm_normalize _ (skew_cross_template ha).ne_zero

theorem dot_orthogonal (a : Vec3 ℝ) : a.dot a.orthogonal = 0 :=
  dot_normalize _ _ (dot_cross_self _ _)

theorem orthogonal_neg (a : Vec3 ℝ) : (-a).orthogonal = -a.orthogonal := by
  have haxis : ((-a).map Scalar.abs).largestAxis = (a.map Scalar.abs).largestAxis :=
    congrArg largestAxis (map_abs_neg a)
  rw [orthogonal, haxis, neg_cross, normalize_neg]
  rfl

end Vec3

/-!
## Frames
-/

namespace Frame

open Vec3

variable {z : Vec3 ℝ}

theorem rightHanded_ofAxis (hz : z.norm = 1) : (ofAxis z).RightHanded := by
  have hy := (norm_eq_one_iff _).mp (norm_orthogonal (ne_zero_of_norm_eq_one z hz))
  have hyz : z.orthogonal.dot z = 0 := by rw [dot_comm, dot_orthogonal]
  exact rightHanded_of_x_eq hy ((norm_eq_one_iff z).mp hz) hyz rfl

/-- A vector that is not zero has an orthogonal vector of length one, which changes
its sign with it and is parallel to no coordinate axis.  Around a vector of length one
the frame is right-handed and has it as third axis, and in this frame placing points
and reading them are inverse to each other. -/
theorem axis_frames_never_degenerate :
    (forall a : Vec3 ℝ, a ≠ zero ->
      a.orthogonal.norm = 1 ∧ a.dot a.orthogonal = 0 ∧
        a.orthogonal = -(-a).orthogonal ∧ a.orthogonal.Skew ∧
        forall axis : Axis, ¬ axis.direction.Parallel a.orthogonal) ∧
    (forall z : Vec3 ℝ, z.norm = 1 ->
      (ofAxis z).RightHanded ∧ (ofAxis z).z = z ∧
        (forall p, (ofAxis z).toLocal ((ofAxis z).toGlobal p) = p) ∧
        (forall p, (ofAxis z).toGlobal ((ofAxis z).toLocal p) = p)) := by
  constructor
  · intro a ha
    have hskew := skew_orthogonal ha
    refine ⟨norm_orthogonal ha, dot_orthogonal a, ?_, hskew, hskew.not_parallel⟩
    rw [orthogonal_neg, neg_neg_eq]
  · intro z hz
    have h := rightHanded_ofAxis hz
    exact ⟨h, rfl, h.toLocal_toGlobal, h.toGlobal_toLocal⟩

/-- Two coordinates of the axis are equally large. -/
theorem axis_frame_of_tie :
    let z : Vec3 ℝ := { x := 2 / 3, y := -2 / 3, z := 1 / 3 }
    z ≠ zero ∧ z.norm = 1 ∧ z.orthogonal.norm = 1 ∧ z.orthogonal.Skew ∧
      (ofAxis z).RightHanded ∧
      (ofAxis z).toGlobal ((ofAxis z).toLocal { x := 1, y := 2, z := 3 }) =
        { x := 1, y := 2, z := 3 } := by
  intro z
  have hunit : z.norm = 1 := by
    rw [norm_eq_one_iff, dot_eq]
    norm_num [z]
  have hz := ne_zero_of_norm_eq_one z hunit
  rcases axis_frames_never_degenerate with ⟨hvectors, hframes⟩
  rcases hvectors z hz with ⟨hnorm, _, _, hskew, _⟩
  rcases hframes z hunit with ⟨hright, _, _, hplaced⟩
  exact ⟨hz, hunit, hnorm, hskew, hright, hplaced _⟩

end Frame

end SphereFixtures
