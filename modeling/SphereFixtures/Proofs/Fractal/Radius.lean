import SphereFixtures.Proofs.Fractal.Plane

/-!
# Circles around the center

The boundary of a fractal lies between two circles whose radii follow from the
settings.  Beyond the line through the middle of a side, or through an inner
point of it, nothing is closer to the center than that point is; and everything
lies in a disc that holds the corners and the middle vertices of the sides.
-/

namespace SphereFixtures

namespace Plane

/-!
## Sides
-/

/-- Two corners of an equilateral triangle around the center, at distance one
from it. -/
structure Corners (z w : ℂ) : Prop where
  inner_start : inner ℝ z z = (1 : ℝ)
  inner_stop : inner ℝ w w = (1 : ℝ)
  inner_between : inner ℝ z w = (-1 / 2 : ℝ)

namespace Corners

variable {z w : ℂ}

theorem symm (h : Corners z w) : Corners w z :=
  { inner_start := h.inner_stop
    inner_stop := h.inner_start
    inner_between := by rw [real_inner_comm, h.inner_between] }

theorem norm_start (h : Corners z w) : ‖z‖ = 1 := by
  have hsq := h.inner_start
  rw [real_inner_self_eq_norm_sq] at hsq
  exact (pow_eq_one_iff_of_nonneg (norm_nonneg z) two_ne_zero).mp hsq

theorem inner_along_along (h : Corners z w) (t : ℝ) :
    inner ℝ (along t z w) (along t z w) = 1 + 3 * t * (t - 1) := by
  simp only [along, inner_add_left, inner_add_right, inner_sub_left,
    inner_sub_right, real_inner_smul_left, real_inner_smul_right,
    h.inner_start, h.inner_stop, h.inner_between, h.symm.inner_between]
  ring

theorem inner_along_start (h : Corners z w) (t : ℝ) :
    inner ℝ (along t z w) z = 1 - 3 / 2 * t := by
  simp only [along, inner_add_left, inner_sub_left, real_inner_smul_left,
    h.inner_start, h.symm.inner_between]
  ring

theorem inner_along_sum (h : Corners z w) (t : ℝ) :
    inner ℝ (along t z w) (z + w) = 1 / 2 := by
  simp only [along, inner_add_left, inner_add_right, inner_sub_left,
    real_inner_smul_left, h.inner_start, h.inner_stop, h.inner_between,
    h.symm.inner_between]
  ring

theorem norm_sum (h : Corners z w) : ‖z + w‖ = 1 := by
  have hsq : ‖z + w‖ ^ 2 = 1 := by
    rw [← real_inner_self_eq_norm_sq]
    simp only [inner_add_left, inner_add_right, h.inner_start, h.inner_stop,
      h.inner_between, h.symm.inner_between]
    norm_num
  exact (pow_eq_one_iff_of_nonneg (norm_nonneg (z + w)) two_ne_zero).mp hsq

end Corners

/-!
## Beyond a line
-/

/-- The points beyond the line through a point of a side that is orthogonal to
the direction of that point. -/
def beyond (t : ℝ) (z w : ℂ) : Set ℂ :=
  { p | inner ℝ (along t z w) (along t z w) ≤ inner ℝ (along t z w) p }

theorem convex_beyond (t : ℝ) (z w : ℂ) : Convex ℝ (beyond t z w) := by
  apply convex_halfSpace_ge
  exact
    { map_add := fun p q => inner_add_right _ p q
      map_smul := fun c p => real_inner_smul_right _ p c }

variable {z w : ℂ} {t : ℝ}

theorem sqrt_le_norm_of_mem_beyond (h : Corners z w) {p : ℂ}
    (hp : p ∈ beyond t z w) : √(1 + 3 * t * (t - 1)) ≤ ‖p‖ := by
  have hself := h.inner_along_along t
  have hmem : inner ℝ (along t z w) (along t z w) ≤ inner ℝ (along t z w) p := hp
  have hcauchy := real_inner_le_norm (along t z w) p
  rw [← hself, real_inner_self_eq_norm_sq, Real.sqrt_sq (norm_nonneg _)]
  rw [real_inner_self_eq_norm_sq] at hmem
  rcases (norm_nonneg (along t z w)).eq_or_lt with hzero | hpos
  · rw [← hzero]
    exact norm_nonneg p
  · nlinarith

theorem beyond_half_comm : beyond (1 / 2) z w = beyond (1 / 2) w z := by
  have halong : along (1 / 2) z w = along (1 / 2) w z := by
    simp only [along, Complex.real_smul]
    push_cast
    ring
  rw [beyond, beyond, halong]

theorem along_mem_beyond : along t z w ∈ beyond t z w :=
  le_refl (inner ℝ (along t z w) (along t z w) : ℝ)

theorem start_mem_beyond (h : Corners z w) (hnonneg : 0 ≤ t) (hle : t ≤ 1 / 2) :
    z ∈ beyond t z w := by
  show inner ℝ (along t z w) (along t z w) ≤ inner ℝ (along t z w) z
  rw [h.inner_along_along, h.inner_along_start]
  nlinarith

theorem sq_sqrt_three : √3 ^ 2 = (3 : ℝ) :=
  Real.sq_sqrt (by norm_num)

/-- A middle vertex that is far enough from the side lies beyond the line
through a point of the side. -/
theorem sum_mem_beyond (h : Corners z w) {f : ℝ} (hnonneg : 0 ≤ f)
    (htangent : 12 * (1 / 2 - t) ^ 4 ≤ f ^ 2) :
    (1 / 2 + f * √3) • (z + w) ∈ beyond t z w := by
  show inner ℝ (along t z w) (along t z w) ≤ inner ℝ (along t z w) _
  rw [h.inner_along_along, real_inner_smul_right, h.inner_along_sum]
  have hroot : 6 * (1 / 2 - t) ^ 2 ≤ f * √3 := by
    apply le_of_sq_le_sq _ (by positivity)
    calc (6 * (1 / 2 - t) ^ 2) ^ 2 = 3 * (12 * (1 / 2 - t) ^ 4) := by ring
      _ ≤ 3 * f ^ 2 := by linarith
      _ = (f * √3) ^ 2 := by rw [mul_pow, sq_sqrt_three]; ring
  nlinarith

/-!
## The triangle
-/

theorem normSq_third : Complex.normSq third = 1 := by
  rw [Complex.normSq_apply]
  simp only [third]
  linear_combination sq_sqrt_three / 4

theorem third_cubed : third * (third * (third * 1)) = 1 := by
  apply Complex.ext
  · simp [third]
    linear_combination (3 / 8) * sq_sqrt_three
  · simp [third]
    linear_combination (-√3 / 8) * sq_sqrt_three

/-- Two corners in their order, with the middle vertex between them outside. -/
structure IsSide (z w : ℂ) : Prop where
  corners : Corners z w
  apex_eq : forall f : ℝ, apex f z w = (1 / 2 + f * √3) • (z + w)

theorem isSide_mul_third {z : ℂ} (hz : Complex.normSq z = 1) :
    IsSide z (third * z) := by
  have hw : Complex.normSq (third * z) = 1 := by
    rw [Complex.normSq_mul, normSq_third, hz, mul_one]
  have hsqrt := sq_sqrt_three
  refine ⟨⟨?_, ?_, ?_⟩, ?_⟩
  · rw [real_inner_self_eq_norm_sq, Complex.sq_norm, hz]
  · rw [real_inner_self_eq_norm_sq, Complex.sq_norm, hw]
  · rw [Complex.normSq_apply] at hz
    rw [Complex.inner]
    simp [third]
    linear_combination (-1 / 2) * hz
  · intro f
    apply Complex.ext
    · simp [apex, third]
      linear_combination (f * z.im / 2) * hsqrt
    · simp [apex, third]
      linear_combination (-f * z.re / 2) * hsqrt

theorem IsSide.norm_apex {z w : ℂ} (h : IsSide z w) {f : ℝ} (hf : 0 ≤ f) :
    ‖apex f z w‖ = f * √3 + 1 / 2 := by
  have hnonneg : 0 ≤ 1 / 2 + f * √3 := by positivity
  rw [h.apex_eq, norm_smul, h.corners.norm_sum, mul_one, Real.norm_eq_abs,
    abs_of_nonneg hnonneg, add_comm]

theorem toComplex_cornerA : (Snowflake.cornerA : Vec2 ℝ).toComplex = 1 := by
  apply Complex.ext
  · show (1.0 : ℝ) = 1
    norm_num
  · show (0.0 : ℝ) = 0
    norm_num

theorem toComplex_cornerB :
    (Snowflake.cornerB : Vec2 ℝ).toComplex = third * 1 := by
  apply Complex.ext
  · show (-0.5 : ℝ) = _
    norm_num [third]
  · show √(3.0 : ℝ) / 2.0 = _
    norm_num [third]

theorem toComplex_cornerC :
    (Snowflake.cornerC : Vec2 ℝ).toComplex = third * (third * 1) := by
  apply Complex.ext
  · show (-0.5 : ℝ) = _
    simp [third]
    nlinarith [sq_sqrt_three]
  · show -√(3.0 : ℝ) / 2.0 = _
    simp [third]
    norm_num
    ring

/-- The corners of every side are a third of a turn apart. -/
theorem isSide_of_mem_sides {a b : Vec2 ℝ} (h : (a, b) ∈ Snowflake.sides) :
    IsSide a.toComplex b.toComplex := by
  have hB : Complex.normSq (third * 1) = 1 := by
    rw [mul_one, normSq_third]
  have hC : Complex.normSq (third * (third * 1)) = 1 := by
    rw [Complex.normSq_mul, hB, normSq_third, mul_one]
  simp only [Snowflake.sides, List.mem_cons, List.not_mem_nil, or_false,
    Prod.mk.injEq] at h
  rcases h with ⟨rfl, rfl⟩ | ⟨rfl, rfl⟩ | ⟨rfl, rfl⟩
  · rw [toComplex_cornerA, toComplex_cornerB]
    exact isSide_mul_third Complex.normSq_one
  · rw [toComplex_cornerB, toComplex_cornerC]
    exact isSide_mul_third hB
  · have hside := isSide_mul_third hC
    rw [third_cubed] at hside
    rw [toComplex_cornerC, toComplex_cornerA]
    exact hside

end Plane

/-!
## Growths of a side
-/

/-- The proportions of a replaced edge, by which its four parts have one
length. -/
structure Proportions (e f : ℝ) : Prop where
  offset_nonneg : 0 ≤ f
  offset_sq : f ^ 2 = e - 1 / 4
  lt_half : e < 1 / 2

namespace Proportions

variable {e f : ℝ} (h : Proportions e f)

include h

theorem quarter_le : 1 / 4 ≤ e := by
  linarith [h.offset_sq, sq_nonneg f]

theorem pos : 0 < e := by
  linarith [h.quarter_le]

theorem nonneg : 0 ≤ e :=
  h.pos.le

theorem le_one : e ≤ 1 := by
  linarith [h.lt_half]

end Proportions

namespace Growth

open Plane

variable {e f : ℝ} (h : Proportions e f) {growth : Growth} {a b : Vec2 ℝ}
  {level : Nat} {d : Edge (Vec2 ℝ)}
  (hside : IsSide a.toComplex b.toComplex)

include h hside

/-- Nothing is closer to the center than the middle of the side. -/
theorem segment_subset_beyond_middle
    (hd : d ∈ growth.edges (Snowflake.cut e f) a b level) :
    segment ℝ d.start.toComplex d.stop.toComplex ⊆
      beyond (1 / 2) a.toComplex b.toComplex := by
  have hhalf : (0 : ℝ) ≤ 1 / 2 := by norm_num
  have hstart := start_mem_beyond hside.corners hhalf le_rfl
  have hstop := start_mem_beyond hside.corners.symm hhalf le_rfl
  have hmiddle := sum_mem_beyond hside.corners h.offset_nonneg (t := 1 / 2)
    (by simpa using sq_nonneg f)
  rw [beyond_half_comm] at hstop
  rw [← hside.apex_eq] at hmiddle
  exact segment_subset_of_holds (convex_beyond _ _ _) h.nonneg h.le_one
    h.offset_sq ⟨hstart, hstop, hmiddle⟩ hd

theorem segment_subset_disc
    (hd : d ∈ growth.edges (Snowflake.cut e f) a b level) :
    segment ℝ d.start.toComplex d.stop.toComplex ⊆
      Metric.closedBall 0 (max 1 (f * √3 + 1 / 2)) := by
  apply segment_subset_of_holds (convex_closedBall _ _) h.nonneg h.le_one
    h.offset_sq _ hd
  constructor
  · rw [mem_closedBall_zero_iff, hside.corners.norm_start]
    exact le_max_left _ _
  · rw [mem_closedBall_zero_iff, hside.corners.symm.norm_start]
    exact le_max_left _ _
  · rw [mem_closedBall_zero_iff, hside.norm_apex h.offset_nonneg]
    exact le_max_right _ _

/-- Once a side is replaced, its first two parts stay beyond the line through
the point where they meet, and the last two beyond the line through theirs. -/
theorem segment_subset_beyond_of_replaced
    (htangent : 12 * (1 / 2 - e) ^ 4 ≤ f ^ 2)
    {first second third fourth : Growth}
    (hd : d ∈ (replaced first second third fourth).edges (Snowflake.cut e f)
      a b level) :
    segment ℝ d.start.toComplex d.stop.toComplex ⊆
        beyond e a.toComplex b.toComplex ∨
      segment ℝ d.start.toComplex d.stop.toComplex ⊆
        beyond e b.toComplex a.toComplex := by
  have hnonneg := h.nonneg
  have hle := h.le_one
  have hf := h.offset_sq
  have hleft := convex_beyond e a.toComplex b.toComplex
  have hright := convex_beyond e b.toComplex a.toComplex
  have hstart := start_mem_beyond hside.corners hnonneg h.lt_half.le
  have hstop := start_mem_beyond hside.corners.symm hnonneg h.lt_half.le
  have hmiddle := sum_mem_beyond hside.corners h.offset_nonneg htangent
  have hmiddle' := sum_mem_beyond hside.corners.symm h.offset_nonneg htangent
  rw [← hside.apex_eq] at hmiddle
  rw [add_comm b.toComplex, ← hside.apex_eq] at hmiddle'
  rw [edges_replaced] at hd
  simp only [List.mem_append] at hd
  rcases hd with ((hd | hd) | hd) | hd
  · apply Or.inl
    apply segment_subset_of_holds hleft hnonneg hle hf _ hd
    rw [toComplex_cut_near]
    exact holds_first hleft hnonneg hle hstart along_mem_beyond hmiddle
  · apply Or.inl
    apply segment_subset_of_holds hleft hnonneg hle hf _ hd
    rw [toComplex_cut_near, toComplex_cut_apex]
    exact holds_second hleft hnonneg hle hf hstart along_mem_beyond hmiddle
  · apply Or.inr
    apply segment_subset_of_holds hright hnonneg hle hf _ hd
    rw [toComplex_cut_far, toComplex_cut_apex]
    exact holds_third hright hnonneg hle hf hstop along_mem_beyond hmiddle'
  · apply Or.inr
    apply segment_subset_of_holds hright hnonneg hle hf _ hd
    rw [toComplex_cut_far]
    exact holds_fourth hright hnonneg hle hstop along_mem_beyond hmiddle'

theorem sqrt_le_norm_of_replaced (htangent : 12 * (1 / 2 - e) ^ 4 ≤ f ^ 2)
    {first second third fourth : Growth}
    (hd : d ∈ (replaced first second third fourth).edges (Snowflake.cut e f)
      a b level) {p : ℂ} (hp : p ∈ segment ℝ d.start.toComplex d.stop.toComplex) :
    √(1 + 3 * e * (e - 1)) ≤ ‖p‖ := by
  rcases segment_subset_beyond_of_replaced h hside htangent hd with hbeyond | hbeyond
  · exact sqrt_le_norm_of_mem_beyond hside.corners (hbeyond hp)
  · exact sqrt_le_norm_of_mem_beyond hside.corners.symm (hbeyond hp)

/-- Every edge leads from the start of its side to a point of the boundary, so a
kept side starts at a corner, and a replaced one stays beyond its lines. -/
theorem sqrt_le_norm_start (htangent : 12 * (1 / 2 - e) ^ 4 ≤ f ^ 2)
    (hd : d ∈ growth.edges (Snowflake.cut e f) a b level) :
    √(1 + 3 * e * (e - 1)) ≤ ‖d.start.toComplex‖ := by
  cases growth with
  | kept =>
      rw [List.mem_singleton.mp hd, hside.corners.norm_start, Real.sqrt_le_one]
      nlinarith [h.nonneg, h.le_one]
  | replaced first second third fourth =>
      exact sqrt_le_norm_of_replaced h hside htangent hd (left_mem_segment ℝ _ _)

end Growth

namespace Realization

open Plane Snowflake

variable {levels : Levels}

theorem exists_edge_of_mem_closedEdges {P : Type} {cut : Cut P} {a b c v w : P}
    (r : Realization levels)
    (h : (v, w) ∈ closedEdges ((r.edges cut a b c).map Edge.start)) :
    exists d, d ∈ r.edges cut a b c ∧ d.start = v ∧ d.stop = w := by
  rw [closedEdges_map_start (r.path_edges cut a b c)] at h
  rcases List.mem_map.mp h with ⟨d, hd, heq⟩
  cases heq
  exact ⟨d, hd, rfl, rfl⟩

/-- Every edge of a realization comes from a side. -/
theorem exists_side_of_mem_edges {α : Type} [Scalar α] {cut : Cut (Vec2 α)}
    (r : Realization levels) {d : Edge (Vec2 α)}
    (hd : d ∈ r.edges cut cornerA cornerB cornerC) :
    exists growth : Growth, growth.Fits levels 0 ∧
      exists a b : Vec2 α, (a, b) ∈ sides ∧ d ∈ growth.edges cut a b 0 := by
  simp only [edges, List.mem_append] at hd
  rcases hd with (hd | hd) | hd
  · exact ⟨r.ab, r.ab_fits, cornerA, cornerB, by simp [sides], hd⟩
  · exact ⟨r.bc, r.bc_fits, cornerB, cornerC, by simp [sides], hd⟩
  · exact ⟨r.ca, r.ca_fits, cornerC, cornerA, by simp [sides], hd⟩

section

variable {e f : ℝ} (h : Proportions e f) (r : Realization levels)
  {d : Edge (Vec2 ℝ)}
  (hd : d ∈ r.edges (Snowflake.cut e f) cornerA cornerB cornerC)

include h hd

theorem norm_of_mem_segment {p : ℂ}
    (hp : p ∈ segment ℝ d.start.toComplex d.stop.toComplex) :
    1 / 2 ≤ ‖p‖ ∧ ‖p‖ ≤ max 1 (f * √3 + 1 / 2) := by
  rcases r.exists_side_of_mem_edges hd with ⟨growth, _, a, b, hmem, hd⟩
  have hside := isSide_of_mem_sides hmem
  constructor
  · have hbeyond := Growth.segment_subset_beyond_middle h hside hd hp
    have hmiddle : 1 + 3 * (1 / 2) * (1 / 2 - 1) = (1 / 2 : ℝ) ^ 2 := by
      norm_num
    have hle := sqrt_le_norm_of_mem_beyond hside.corners hbeyond
    rw [hmiddle, Real.sqrt_sq (by norm_num)] at hle
    exact hle
  · exact mem_closedBall_zero_iff.mp (Growth.segment_subset_disc h hside hd hp)

variable (htangent : 12 * (1 / 2 - e) ^ 4 ≤ f ^ 2)

include htangent

theorem sqrt_le_norm_start :
    √(1 + 3 * e * (e - 1)) ≤ ‖d.start.toComplex‖ := by
  rcases r.exists_side_of_mem_edges hd with ⟨growth, _, a, b, hmem, hd⟩
  have hside := isSide_of_mem_sides hmem
  exact Growth.sqrt_le_norm_start h hside htangent hd

theorem sqrt_le_norm_of_mem_segment (hleast : 1 ≤ levels.least) {p : ℂ}
    (hp : p ∈ segment ℝ d.start.toComplex d.stop.toComplex) :
    √(1 + 3 * e * (e - 1)) ≤ ‖p‖ := by
  rcases r.exists_side_of_mem_edges hd with ⟨growth, hfits, a, b, hmem, hd⟩
  have hside := isSide_of_mem_sides hmem
  cases growth with
  | kept =>
      have hzero := hfits.left
      omega
  | replaced first second third fourth =>
      exact Growth.sqrt_le_norm_of_replaced h hside htangent hd hp

end

/-- With the sides replaced, a corner or the middle vertex of a side is as far
away as the disc reaches. -/
theorem exists_norm_start_eq {e f : ℝ} (h : Proportions e f)
    (hleast : 1 ≤ levels.least) (r : Realization levels) :
    exists d, d ∈ r.edges (Snowflake.cut e f) cornerA cornerB cornerC ∧
      ‖d.start.toComplex‖ = max 1 (f * √3 + 1 / 2) := by
  have hside : IsSide cornerA.toComplex cornerB.toComplex :=
    isSide_of_mem_sides (by simp [sides])
  rcases le_total (f * √3 + 1 / 2) 1 with hle | hle
  · rcases r.ab.exists_mem_edges_start (Snowflake.cut e f) cornerA cornerB 0 with
      ⟨d, hd, hstart⟩
    refine ⟨d, ?_, ?_⟩
    · rw [edges, List.append_assoc]
      exact List.mem_append_left _ hd
    · rw [hstart, hside.corners.norm_start, max_eq_left hle]
  · have hfits := r.ab_fits
    cases hab : r.ab with
    | kept =>
        rw [hab] at hfits
        have hzero := hfits.left
        omega
    | replaced first second third fourth =>
        rcases third.exists_mem_edges_start (Snowflake.cut e f)
          (Snowflake.cut e f cornerA cornerB).2.1
          (Snowflake.cut e f cornerA cornerB).2.2 1 with ⟨d, hd, hstart⟩
        refine ⟨d, ?_, ?_⟩
        · rw [edges, hab, List.append_assoc, Growth.edges_replaced]
          exact List.mem_append_left _
            (List.mem_append_left _ (List.mem_append_right _ hd))
        · rw [hstart, toComplex_cut_apex, hside.norm_apex h.offset_nonneg,
            max_eq_right hle]

end Realization

namespace Settings

open Plane Snowflake

theorem offsetFraction_eq (s : Settings ℝ) :
    s.offsetFraction = √(s.edgeFraction - 1 / 4) := by
  show √(s.edgeFraction - (0.25 : ℝ)) = _
  norm_num

theorem proportions {s : Settings ℝ} (hquarter : 1 / 4 ≤ s.edgeFraction)
    (hhalf : s.edgeFraction < 1 / 2) :
    Proportions s.edgeFraction s.offsetFraction := by
  rw [offsetFraction_eq]
  exact
    { offset_nonneg := Real.sqrt_nonneg _
      offset_sq := Real.sq_sqrt (by linarith)
      lt_half := hhalf }

theorem edgeFraction_of_log {e : ℝ} (hpos : 0 < e) (hone : e < 1)
    {s : Settings ℝ} (hdimension : s.dimension = -(Real.log 4 / Real.log e)) :
    s.edgeFraction = e := by
  have htext : s.edgeFraction = (4.0 : ℝ) ^ ((-1.0 : ℝ) / s.dimension) := rfl
  have hlog : Real.log e ≠ 0 := (Real.log_neg hpos hone).ne
  have hfour : Real.log 4 ≠ 0 := (Real.log_pos (by norm_num)).ne'
  have hexponent : (-1.0 : ℝ) / s.dimension = Real.log e / Real.log 4 := by
    rw [hdimension]
    field_simp
    norm_num
  have hbase : (4.0 : ℝ) = 4 := by norm_num
  rw [htext, hexponent, hbase, Real.rpow_def_of_pos (by norm_num),
    mul_div_cancel₀ _ hfour, Real.exp_log hpos]

/-- Every edge fraction from a quarter to below a half is that of a dimension
that is accepted. -/
theorem exists_dimension_of_edgeFraction {e : ℝ} (hquarter : 1 / 4 ≤ e)
    (hhalf : e < 1 / 2) (s : Settings ℝ) :
    exists dimension s', s.setDimension dimension = .ok s' ∧
      s'.edgeFraction = e := by
  have hpos : 0 < e := by linarith
  have hfour : Real.log 4 = 2 * Real.log 2 := by
    rw [show (4 : ℝ) = 2 ^ 2 by norm_num, Real.log_pow]
    norm_num
  have htwo : 0 < Real.log 2 := Real.log_pos (by norm_num)
  have hleast : -Real.log 4 ≤ Real.log e := by
    rw [← Real.log_inv]
    exact Real.log_le_log (by norm_num) (by linarith)
  have hgreatest : Real.log e < -Real.log 2 := by
    rw [← Real.log_inv]
    exact Real.log_lt_log hpos (by linarith)
  have haccepted : (1.0 : ℝ) ≤ -(Real.log 4 / Real.log e) ∧
      -(Real.log 4 / Real.log e) < (2.0 : ℝ) := by
    have hneg : 0 < -Real.log e := by linarith
    rw [← div_neg, le_div_iff₀ hneg, div_lt_iff₀ hneg]
    constructor <;> norm_num <;> linarith
  refine ⟨-(Real.log 4 / Real.log e), _, if_pos haccepted, ?_⟩
  exact edgeFraction_of_log hpos (by linarith) rfl

theorem maxRadiusFactor_eq (s : Settings ℝ) :
    s.maxRadiusFactor = max 1 (s.offsetFraction * √3 + 1 / 2) := by
  have htext : s.maxRadiusFactor =
      Scalar.atLeast (1.0 : ℝ) (s.offsetFraction * √(3.0 : ℝ) + (0.5 : ℝ)) := rfl
  rw [htext, Scalar.atLeast_eq_max]
  norm_num

theorem minRadiusFactor_eq (s : Settings ℝ) :
    s.minRadiusFactor =
      if (firstVertexDimension : ℝ) ≤ s.dimension then
        √(1 + 3 * s.edgeFraction * (s.edgeFraction - 1))
      else 1 / 2 := by
  have htext : s.minRadiusFactor =
      if (firstVertexDimension : ℝ) ≤ s.dimension then
        √((1.0 : ℝ) + (3.0 : ℝ) * s.edgeFraction * (s.edgeFraction - (1.0 : ℝ)))
      else (0.5 : ℝ) := rfl
  rw [htext]
  norm_num

theorem half_le_minRadiusFactor (s : Settings ℝ) : 1 / 2 ≤ s.minRadiusFactor := by
  rw [minRadiusFactor_eq]
  split
  · apply Real.le_sqrt_of_sq_le
    nlinarith [sq_nonneg (s.edgeFraction - 1 / 2)]
  · exact le_rfl

theorem minRadiusFactor_le_one {s : Settings ℝ} (hnonneg : 0 ≤ s.edgeFraction)
    (hle : s.edgeFraction ≤ 1) : s.minRadiusFactor ≤ 1 := by
  rw [minRadiusFactor_eq]
  split
  · rw [Real.sqrt_le_one]
    nlinarith
  · norm_num

theorem one_le_maxRadiusFactor (s : Settings ℝ) : 1 ≤ s.maxRadiusFactor := by
  rw [maxRadiusFactor_eq]
  exact le_max_left _ _

end Settings

end SphereFixtures
