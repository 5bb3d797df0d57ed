import SphereFixtures.Proofs.Fractal.Radius

/-!
# Dimensions and edge fractions

A longer edge fraction goes with a greater dimension.  The settings that can be
reached have a dimension from one to below two, and so an edge fraction from a
quarter to below a half.  From the first-vertex dimension on, the line through
the first inner point of a side leaves the middle vertex of the side beyond it.
-/

namespace SphereFixtures

namespace Settings

open Real

/-!
## Settings that can be reached
-/

/-- Whether settings come from the initial ones by accepted changes. -/
inductive Reachable {α : Type} [Scalar α] : Settings α -> Prop where
  | initial : Reachable initial
  | set {s s' : Settings α} (setting : Setting α) (hs : Reachable s)
      (hset : s.set setting = .ok s') : Reachable s'

/-- A change of the levels keeps the dimension, and a new dimension is one from
one to below two. -/
theorem dimension_of_set {s s' : Settings ℝ} {setting : Setting ℝ}
    (hset : s.set setting = .ok s') :
    s'.dimension = s.dimension ∨ 1 ≤ s'.dimension ∧ s'.dimension < 2 := by
  have hmax {level : Int} (h : s.setMaxLevel level = .ok s') :
      s'.dimension = s.dimension := by
    rw [setMaxLevel] at h
    split at h
    · cases h
    · cases h
      rfl
  have hmin {level : Int} (h : s.setMinLevel level = .ok s') :
      s'.dimension = s.dimension := by
    rw [setMinLevel] at h
    split at h
    · cases h
    · cases h
      rfl
  cases setting with
  | maxLevel level => exact Or.inl (hmax hset)
  | minLevel level => exact Or.inl (hmin hset)
  | maxEdges count => exact Or.inl (hmax hset)
  | minEdges count => exact Or.inl (hmin hset)
  | dimension value =>
      have h : s.setDimension value = .ok s' := hset
      rw [setDimension] at h
      split at h
      · next haccepted =>
          cases h
          norm_num at haccepted
          exact Or.inr haccepted
      · cases h

theorem log_three_pos : 0 < log 3 :=
  log_pos (by norm_num)

theorem log_four_eq : log 4 = 2 * log 2 := by
  rw [show (4 : ℝ) = 2 ^ 2 by norm_num, log_pow]
  norm_num

/-- The dimension of the standard snowflake is one that is accepted. -/
theorem snowflakeDimension_mem :
    1 ≤ (snowflakeDimension : ℝ) ∧ (snowflakeDimension : ℝ) < 2 := by
  have htext : (snowflakeDimension : ℝ) = log 4 / log 3 := by
    show log 4.0 / log 3.0 = _
    norm_num
  have hpos := log_three_pos
  have hlower : log 3 ≤ log 4 := log_le_log (by norm_num) (by norm_num)
  have hupper : log 2 < log 3 := log_lt_log (by norm_num) (by norm_num)
  rw [htext, le_div_iff₀ hpos, div_lt_iff₀ hpos, log_four_eq]
  rw [log_four_eq] at hlower
  constructor <;> linarith

theorem Reachable.dimension_mem {s : Settings ℝ} (h : s.Reachable) :
    1 ≤ s.dimension ∧ s.dimension < 2 := by
  induction h with
  | initial => exact snowflakeDimension_mem
  | set _ _ hset ih =>
      rcases dimension_of_set hset with hsame | hnew
      · rw [hsame]
        exact ih
      · exact hnew

/-!
## The edge fraction of a dimension
-/

theorem edgeFraction_pos (s : Settings ℝ) : 0 < s.edgeFraction := by
  show 0 < (4.0 : ℝ) ^ ((-1.0 : ℝ) / s.dimension)
  positivity

theorem log_edgeFraction (s : Settings ℝ) :
    log s.edgeFraction = -(log 4 / s.dimension) := by
  have htext : s.edgeFraction = (4.0 : ℝ) ^ ((-1.0 : ℝ) / s.dimension) := rfl
  rw [htext, log_rpow (by norm_num)]
  norm_num
  ring

section

variable {s : Settings ℝ} (hlower : 1 ≤ s.dimension)

include hlower

theorem quarter_le_edgeFraction : 1 / 4 ≤ s.edgeFraction := by
  have hpos : 0 < s.dimension := by linarith
  have hfour : 0 < log 4 := log_pos (by norm_num)
  rw [← log_le_log_iff (by norm_num) s.edgeFraction_pos, log_edgeFraction, one_div,
    log_inv, neg_le_neg_iff, div_le_iff₀ hpos]
  nlinarith

theorem edgeFraction_lt_half (hupper : s.dimension < 2) :
    s.edgeFraction < 1 / 2 := by
  have hpos : 0 < s.dimension := by linarith
  have htwo : 0 < log 2 := log_pos (by norm_num)
  rw [← log_lt_log_iff s.edgeFraction_pos (by norm_num), log_edgeFraction, one_div,
    log_inv, neg_lt_neg_iff, lt_div_iff₀ hpos, log_four_eq]
  nlinarith

end

theorem Reachable.edgeFraction_lt_half {s : Settings ℝ} (h : s.Reachable) :
    s.edgeFraction < 1 / 2 :=
  Settings.edgeFraction_lt_half h.dimension_mem.left h.dimension_mem.right

theorem Reachable.proportions {s : Settings ℝ} (h : s.Reachable) :
    Proportions s.edgeFraction s.offsetFraction :=
  Settings.proportions (quarter_le_edgeFraction h.dimension_mem.left)
    h.edgeFraction_lt_half

/-- The edges of the standard snowflake have thirds. -/
theorem edgeFraction_of_snowflakeDimension {s : Settings ℝ}
    (h : s.dimension = snowflakeDimension) : s.edgeFraction = 1 / 3 := by
  have htext : (snowflakeDimension : ℝ) = log 4.0 / log 3.0 := rfl
  apply edgeFraction_of_log (by norm_num) (by norm_num)
  rw [h, htext, one_div, log_inv, div_neg, neg_neg]
  norm_num

/-!
## The first-vertex dimension
-/

/-- An edge fraction just below that of the first-vertex dimension. -/
noncomputable def firstVertexFraction : ℝ := 0.27875333298777897

theorem log_two_lower : 0.693147180559945309 ≤ log 2 := by
  have hseries := sum_range_le_log_div (x := 1 / 3) (by norm_num) (by norm_num) 18
  have htwo : (1 + 1 / 3) / (1 - 1 / 3) = (2 : ℝ) := by norm_num
  rw [htwo] at hseries
  have hsum : (0.693147180559945309 : ℝ) / 2 ≤
      ∑ i ∈ Finset.range 18, (1 / 3 : ℝ) ^ (2 * i + 1) / (2 * i + 1) := by
    simp only [Finset.sum_range_succ, Finset.sum_range_zero]
    norm_num
  linarith

theorem log_firstVertexFraction_upper :
    log (4 * firstVertexFraction) ≤ 0.108866361747429232 := by
  have hseries := log_div_le_sum_range_add
    (x := 2875333298777897 / 52875333298777897) (by norm_num) (by norm_num) 7
  have hfraction :
      (1 + 2875333298777897 / 52875333298777897) /
          (1 - 2875333298777897 / 52875333298777897) =
        4 * firstVertexFraction := by
    norm_num [firstVertexFraction]
  rw [hfraction] at hseries
  have hsum :
      (∑ i ∈ Finset.range 7,
          (2875333298777897 / 52875333298777897 : ℝ) ^ (2 * i + 1) / (2 * i + 1)) +
        (2875333298777897 / 52875333298777897 : ℝ) ^ (2 * 7 + 1) /
          (1 - (2875333298777897 / 52875333298777897 : ℝ) ^ 2) ≤
      0.108866361747429232 / 2 := by
    simp only [Finset.sum_range_succ, Finset.sum_range_zero]
    norm_num
  linarith

section

variable {s : Settings ℝ} (hfirst : firstVertexDimension ≤ s.dimension)

include hfirst

theorem firstVertexFraction_le : firstVertexFraction ≤ s.edgeFraction := by
  have hdimension : (1.0852230903040407 : ℝ) ≤ s.dimension := hfirst
  have hpos : 0 < s.dimension := lt_of_lt_of_le (by norm_num) hdimension
  have htwo := log_two_lower
  have hupper := log_firstVertexFraction_upper
  have hfraction : 0 < firstVertexFraction := by norm_num [firstVertexFraction]
  rw [log_mul (by norm_num) hfraction.ne', log_four_eq] at hupper
  rw [← log_le_log_iff hfraction s.edgeFraction_pos, log_edgeFraction, le_neg,
    div_le_iff₀ hpos, log_four_eq]
  -- the two sides are less than `1e-16` apart at the first-vertex dimension
  have hscale : 1.0852230903040407 * -log firstVertexFraction ≤
      s.dimension * -log firstVertexFraction :=
    mul_le_mul_of_nonneg_right hdimension (by linarith)
  linarith

/-- From the first-vertex dimension on, the first part of a side and the edge
behind it turn outwards. -/
theorem tangent_of_firstVertexDimension (hhalf : s.edgeFraction < 1 / 2) :
    12 * (1 / 2 - s.edgeFraction) ^ 4 ≤ s.edgeFraction - 1 / 4 := by
  have hfraction := firstVertexFraction_le hfirst
  have hpower : (1 / 2 - s.edgeFraction) ^ 4 ≤ (1 / 2 - firstVertexFraction) ^ 4 :=
    pow_le_pow_left₀ (by linarith) (by linarith) 4
  have hroot :
      12 * (1 / 2 - firstVertexFraction) ^ 4 ≤ firstVertexFraction - 1 / 4 := by
    norm_num [firstVertexFraction]
  linarith

end

theorem firstVertexDimension_le_snowflakeDimension :
    (firstVertexDimension : ℝ) ≤ snowflakeDimension := by
  have htext : (snowflakeDimension : ℝ) = log 4.0 / log 3.0 := rfl
  have hfirst : (firstVertexDimension : ℝ) ≤ 5 / 4 := by
    show (1.0852230903040407 : ℝ) ≤ 5 / 4
    norm_num
  have hpowers : 5 * log 3 ≤ 4 * log 4 := by
    have hpos : (0 : ℝ) < 3 ^ 5 := by norm_num
    have hlog := log_le_log hpos (show (3 : ℝ) ^ 5 ≤ 4 ^ 4 by norm_num)
    rw [log_pow, log_pow] at hlog
    exact_mod_cast hlog
  refine hfirst.trans ?_
  have hthree : log 3.0 = log 3 := by norm_num
  have hfour : log 4.0 = log 4 := by norm_num
  rw [htext, hthree, hfour, le_div_iff₀ log_three_pos]
  linarith

section

variable {s : Settings ℝ} (h : s.dimension = snowflakeDimension)

include h

/-- A standard snowflake is closest to the center at its first inner points. -/
theorem minRadiusFactor_of_snowflakeDimension : s.minRadiusFactor = (√3)⁻¹ := by
  have hfirst : (firstVertexDimension : ℝ) ≤ s.dimension := by
    rw [h]
    exact firstVertexDimension_le_snowflakeDimension
  rw [minRadiusFactor_eq, if_pos hfirst, edgeFraction_of_snowflakeDimension h,
    ← sqrt_inv]
  norm_num

/-- The middle vertices of a standard snowflake are as far away as its corners. -/
theorem maxRadiusFactor_of_snowflakeDimension : s.maxRadiusFactor = 1 := by
  have hhalf : √((1 / 3 - 1 / 4) * 3) = 1 / 2 := by
    rw [sqrt_eq_iff_mul_self_eq (by norm_num) (by norm_num)]
    norm_num
  rw [maxRadiusFactor_eq, offsetFraction_eq, edgeFraction_of_snowflakeDimension h,
    ← sqrt_mul (by norm_num), hhalf]
  norm_num

end

end Settings

end SphereFixtures
