import SphereFixtures.Proofs.Geometry.Orthonormal

/-!
# Directions

A vector that is not zero is scaled to length one by its length, and the zero vector
is left as it is.  The product of two vectors vanishes where one of them is a multiple
of the other one, which is where they are linearly dependent.  The angle between two
vectors depends on their directions only.
-/

namespace SphereFixtures

namespace Vec3

/-!
## Vectors of length one
-/

@[ext] theorem ext {a b : Vec3 ℝ} (hx : a.x = b.x) (hy : a.y = b.y) (hz : a.z = b.z) :
    a = b := by
  cases a
  cases b
  rw [mk.injEq]
  exact ⟨hx, hy, hz⟩

theorem zero_eq : (zero : Vec3 ℝ) = { x := 0, y := 0, z := 0 } := by
  have hzero : (0.0 : ℝ) = 0 := by norm_num
  rw [zero, hzero]

variable (a b : Vec3 ℝ)

theorem dot_self_eq_zero_iff : a.dot a = 0 <-> a = zero := by
  rw [zero_eq]
  constructor
  · intro h
    rw [dot_eq] at h
    have hx : a.x = 0 := by nlinarith [sq_nonneg a.x, sq_nonneg a.y, sq_nonneg a.z]
    have hy : a.y = 0 := by nlinarith [sq_nonneg a.x, sq_nonneg a.y, sq_nonneg a.z]
    have hz : a.z = 0 := by nlinarith [sq_nonneg a.x, sq_nonneg a.y, sq_nonneg a.z]
    exact ext hx hy hz
  · rintro rfl
    norm_num [dot_eq]

theorem norm_eq_zero_iff : a.norm = 0 <-> a = zero := by
  rw [norm_eq, Real.sqrt_eq_zero a.dot_self_nonneg, dot_self_eq_zero_iff]

theorem normalize_eq : a.normalize = if a = zero then a else a.divBy a.norm := by
  have hzero : (0.0 : ℝ) = 0 := by norm_num
  have htest : (a.norm == (0.0 : ℝ)) = true <-> a = zero := by
    rw [hzero, ← norm_eq_zero_iff]
    exact beq_iff_eq
  rw [normalize]
  simp only [htest]

theorem normalize_zero : (zero : Vec3 ℝ).normalize = zero := by
  rw [normalize_eq, if_pos rfl]

theorem norm_pos_iff : 0 < a.norm <-> a ≠ zero := by
  rw [a.norm_nonneg.lt_iff_ne', Ne, norm_eq_zero_iff]

theorem dot_normalize_self (ha : a ≠ zero) : a.normalize.dot a.normalize = 1 := by
  rw [normalize_eq, if_neg ha, ← norm_sq, norm_divBy_norm a (a.norm_pos_iff.mpr ha),
    one_pow]

theorem dot_normalize (h : a.dot b = 0) : a.dot b.normalize = 0 := by
  rw [normalize_eq]
  split
  · exact h
  · rw [dot_divBy, h, zero_div]

theorem normalize_of_unit (h : a.dot a = 1) : a.normalize = a := by
  have hone : a.norm = 1 := by
    rw [norm_eq, h, Real.sqrt_one]
  rw [normalize_eq, hone]
  split
  · rfl
  · simp only [divBy_eq, div_one]

theorem norm_eq_one_iff : a.norm = 1 <-> a.dot a = 1 := by
  rw [norm_eq, Real.sqrt_eq_one]

theorem norm_normalize (ha : a ≠ zero) : a.normalize.norm = 1 :=
  (norm_eq_one_iff _).mpr (dot_normalize_self a ha)

theorem ne_zero_of_norm_eq_one (ha : a.norm = 1) : a ≠ zero := by
  rw [← norm_pos_iff, ha]
  exact one_pos

/-!
## Differences and opposite vectors
-/

theorem sub_eq : a - b = { x := a.x - b.x, y := a.y - b.y, z := a.z - b.z } := rfl

theorem neg_eq : -a = { x := -a.x, y := -a.y, z := -a.z } := rfl

theorem sub_eq_zero_iff : a - b = zero <-> a = b := by
  rw [zero_eq, sub_eq, mk.injEq, sub_eq_zero, sub_eq_zero, sub_eq_zero]
  exact Vec3.ext_iff.symm

theorem neg_neg_eq : -(-a) = a := by
  simp only [neg_eq, neg_neg]

theorem neg_cross : (-a).cross b = -a.cross b := by
  simp only [neg_eq, cross, mk.injEq]
  refine ⟨?_, ?_, ?_⟩ <;> ring

theorem norm_neg : (-a).norm = a.norm := by
  have hdot : (-a).dot (-a) = a.dot a := by
    simp only [neg_eq, dot_eq]
    ring
  rw [norm_eq, hdot, norm_eq]

theorem normalize_neg : (-a).normalize = -a.normalize := by
  rw [normalize, normalize, norm_neg]
  split
  · rfl
  · simp only [divBy_eq, neg_eq, neg_div]

/-!
## Products
-/

theorem dot_cross_self : a.dot (a.cross b) = 0 := by
  rw [dot_eq]
  simp only [cross]
  ring

theorem dot_cross_right : b.dot (a.cross b) = 0 := by
  rw [dot_eq]
  simp only [cross]
  ring

theorem cross_self : a.cross a = zero := by
  rw [zero_eq]
  simp only [cross, mk.injEq]
  refine ⟨?_, ?_, ?_⟩ <;> ring

theorem cross_zero : a.cross zero = zero := by
  rw [zero_eq]
  simp [cross]

theorem zero_cross : zero.cross a = zero := by
  rw [zero_eq]
  simp [cross]

theorem dot_self_cross (ha : a.dot a = 1) (hb : b.dot b = 1) (hab : a.dot b = 0) :
    (a.cross b).dot (a.cross b) = 1 := by
  rw [← norm_sq, norm_cross_sq, ha, hb, hab]
  norm_num

/-- The double product turns a vector back. -/
theorem cross_cross_self (ha : a.dot a = 1) (hab : a.dot b = 0) :
    (a.cross b).cross a = b := by
  rw [dot_eq] at ha hab
  ext <;> simp only [cross]
  · linear_combination b.x * ha - a.x * hab
  · linear_combination b.y * ha - a.y * hab
  · linear_combination b.z * ha - a.z * hab

/-!
## Parallel vectors
-/

/-- Whether the second vector is a multiple of the first one.  The zero vector is a
multiple of every vector. -/
def Parallel : Prop :=
  exists s : ℝ, b = a.map (s * ·)

theorem cross_eq_zero_of_parallel (h : a.Parallel b) : a.cross b = zero := by
  rcases h with ⟨s, rfl⟩
  rw [zero_eq]
  simp only [cross, map, mk.injEq]
  refine ⟨?_, ?_, ?_⟩ <;> ring

theorem parallel_of_cross_eq_zero (ha : a ≠ zero) (h : a.cross b = zero) :
    a.Parallel b := by
  have hpos : a.dot a ≠ 0 := mt (dot_self_eq_zero_iff a).mp ha
  rw [zero_eq] at h
  simp only [cross, mk.injEq] at h
  rcases h with ⟨hx, hy, hz⟩
  -- the projection on `a` is all there is of `b`
  refine ⟨a.dot b / a.dot a, ?_⟩
  ext <;> simp only [map] <;> rw [div_mul_eq_mul_div, eq_div_iff hpos, dot_eq, dot_eq]
  · linear_combination a.z * hy - a.y * hz
  · linear_combination a.x * hz - a.z * hx
  · linear_combination a.y * hx - a.x * hy

theorem cross_eq_zero_iff (ha : a ≠ zero) : a.cross b = zero <-> a.Parallel b :=
  ⟨parallel_of_cross_eq_zero a b ha, cross_eq_zero_of_parallel a b⟩

/-!
## Coordinates
-/

/-- The coordinates as a vector of three numbers, over which matrices act. -/
def coordinates : Fin 3 -> ℝ :=
  ![a.x, a.y, a.z]

theorem coordinates_injective : Function.Injective coordinates := by
  intro a b h
  exact ext (congrFun h 0) (congrFun h 1) (congrFun h 2)

theorem coordinates_surjective : Function.Surjective coordinates := by
  intro v
  refine ⟨{ x := v 0, y := v 1, z := v 2 }, ?_⟩
  funext i
  fin_cases i <;> rfl

theorem coordinates_cross :
    (a.cross b).coordinates = crossProduct a.coordinates b.coordinates := rfl

theorem dotProduct_coordinates : a.coordinates ⬝ᵥ b.coordinates = a.dot b := by
  rw [dot_eq]
  exact Matrix.vec3_dotProduct _ _

theorem linearIndependent_iff_cross_ne_zero :
    LinearIndependent ℝ ![a.coordinates, b.coordinates] <-> a.cross b ≠ zero := by
  have hzero : (zero : Vec3 ℝ).coordinates = 0 := by
    rw [zero_eq]
    exact Matrix.cons_eq_zero_iff.mpr (by simp)
  rw [← crossProduct_ne_zero_iff_linearIndependent, ← coordinates_cross, ← hzero,
    coordinates_injective.ne_iff]

/-!
## Angles
-/

/-- A vector is seen at no angle from its own direction, and so is one whose
length cannot be made one. -/
theorem angleTo_divBy_self {s : ℝ} (hs : 0 ≤ s) : a.angleTo (a.divBy s) = 0 := by
  have hnorm : (a.cross (a.divBy s)).norm = 0 := by
    rw [cross_divBy, cross_self, norm_eq_zero_iff, zero_eq]
    simp only [divBy_eq, zero_div]
  rw [angleTo_eq_arg, hnorm, dot_divBy]
  exact Complex.arg_ofReal_of_nonneg (div_nonneg a.dot_self_nonneg hs)

theorem angleTo_comm : a.angleTo b = b.angleTo a := by
  have hcross : (a.cross b).norm = (b.cross a).norm := by
    rw [← Real.sqrt_sq (norm_nonneg _), norm_cross_sq, mul_comm, dot_comm a b,
      ← norm_cross_sq, Real.sqrt_sq (norm_nonneg _)]
  rw [angleTo_eq_arg, angleTo_eq_arg, dot_comm, hcross]

theorem normalize_angleTo : a.normalize.angleTo b = a.angleTo b := by
  rw [normalize_eq]
  split
  · rfl
  · next ha =>
      rw [angleTo_comm, angleTo_divBy _ _ ((norm_pos_iff a).mpr ha), angleTo_comm]

theorem norm_cross_sq_of_unit (ha : a.norm = 1) (hb : b.norm = 1) :
    (a.cross b).norm ^ 2 = 1 - a.dot b ^ 2 := by
  rw [norm_cross_sq, (norm_eq_one_iff a).mp ha, (norm_eq_one_iff b).mp hb, one_mul]

theorem abs_dot_le_one (ha : a.norm = 1) (hb : b.norm = 1) : |a.dot b| ≤ 1 := by
  rw [← sq_le_one_iff_abs_le_one, ← sub_nonneg, ← norm_cross_sq_of_unit a b ha hb]
  exact sq_nonneg _

/-- Between vectors of length one the angle is told by its cosine alone. -/
theorem angleTo_eq_arccos (ha : a.norm = 1) (hb : b.norm = 1) :
    a.angleTo b = Real.arccos (a.dot b) := by
  have hle := abs_le.mp (abs_dot_le_one a b ha hb)
  have hcosine : a.dot b = Real.cos (Real.arccos (a.dot b)) :=
    (Real.cos_arccos hle.left hle.right).symm
  have hsine : (a.cross b).norm = Real.sin (Real.arccos (a.dot b)) := by
    rw [Real.sin_arccos, ← norm_cross_sq_of_unit a b ha hb,
      Real.sqrt_sq (norm_nonneg _)]
  have hrange : Real.arccos (a.dot b) ∈ Set.Ioc (-Real.pi) Real.pi :=
    ⟨(neg_lt_zero.mpr Real.pi_pos).trans_le (Real.arccos_nonneg _),
      Real.arccos_le_pi _⟩
  have hpoint : (⟨a.dot b, (a.cross b).norm⟩ : ℂ) =
      Complex.cos (Real.arccos (a.dot b)) +
        Complex.sin (Real.arccos (a.dot b)) * Complex.I := by
    rw [← Complex.ofReal_cos, ← Complex.ofReal_sin, ← hcosine, ← hsine]
    exact Complex.mk_eq_add_mul_I _ _
  rw [angleTo_eq_arg, hpoint, Complex.arg_cos_add_sin_mul_I hrange]

end Vec3

end SphereFixtures
