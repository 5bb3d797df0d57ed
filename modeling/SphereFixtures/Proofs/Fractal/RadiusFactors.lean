import SphereFixtures.Proofs.Fractal.Dimension
import SphereFixtures.Random.Seed

/-!
# Radius factors

The greatest factor is the radius of the disc that holds the corners and the middle
vertices of the sides.  The least one is the distance of the first inner points of the
sides from the first-vertex dimension on, and half the nominal radius below it.  All
vertices keep to both factors, and so does the rest of a boundary without whole sides.
-/

namespace SphereFixtures

namespace Settings

open Plane Snowflake

variable {s : Settings ℝ}

/-!
## The least factor
-/

/-- Nothing is below the least factor that is not below the half, and not below the
first inner points once the first part of a side and the edge behind it turn
outwards. -/
theorem minRadiusFactor_le (h : Proportions s.edgeFraction s.offsetFraction) {x : ℝ}
    (hcenter : 1 / 2 ≤ x)
    (hnear : 12 * (1 / 2 - s.edgeFraction) ^ 4 ≤ s.offsetFraction ^ 2 ->
      √(1 + 3 * s.edgeFraction * (s.edgeFraction - 1)) ≤ x) :
    s.minRadiusFactor ≤ x := by
  rw [minRadiusFactor_eq]
  split
  · next hfirst =>
      apply hnear
      rw [h.offset_sq]
      exact tangent_of_firstVertexDimension hfirst h.lt_half
  · exact hcenter

/-!
## Realizations
-/

theorem one_le_least {levels : Levels} (hlevels : s.levels? = some levels)
    (hleast : 1 ≤ s.leastLevel) : 1 ≤ levels.least := by
  have hlevel := (of_levels?_eq_some hlevels).left
  omega

section

variable {vertices : List (Vec2 ℝ)} (hrealizes : s.Realizes vertices)
  (h : Proportions s.edgeFraction s.offsetFraction)

include hrealizes h

/-- The vertices keep to the radius factors at all levels. -/
theorem Realizes.norm_mem {v : Vec2 ℝ} (hv : v ∈ vertices) :
    s.minRadiusFactor ≤ ‖v.toComplex‖ ∧ ‖v.toComplex‖ ≤ s.maxRadiusFactor := by
  rcases hrealizes with ⟨levels, _, r, rfl⟩
  rcases List.mem_map.mp hv with ⟨d, hd, rfl⟩
  have hdisc := r.norm_of_mem_segment h hd (left_mem_segment ℝ _ _)
  rw [maxRadiusFactor_eq]
  exact ⟨minRadiusFactor_le h hdisc.left (r.sqrt_le_norm_start h hd), hdisc.right⟩

variable {v w : Vec2 ℝ} (hvw : (v, w) ∈ closedEdges vertices) {p : ℂ}
  (hp : p ∈ segment ℝ v.toComplex w.toComplex)

include hvw hp

theorem Realizes.norm_le_maxRadiusFactor : ‖p‖ ≤ s.maxRadiusFactor := by
  rcases hrealizes with ⟨levels, _, r, rfl⟩
  rcases r.exists_edge_of_mem_closedEdges hvw with ⟨d, hd, rfl, rfl⟩
  rw [maxRadiusFactor_eq]
  exact (r.norm_of_mem_segment h hd hp).right

/-- Above level zero no side stays whole. -/
theorem Realizes.minRadiusFactor_le_norm (hleast : 1 ≤ s.leastLevel) :
    s.minRadiusFactor ≤ ‖p‖ := by
  rcases hrealizes with ⟨levels, hlevels, r, rfl⟩
  rcases r.exists_edge_of_mem_closedEdges hvw with ⟨d, hd, rfl, rfl⟩
  have hone := one_le_least hlevels hleast
  apply minRadiusFactor_le h (r.norm_of_mem_segment h hd hp).left
  intro htangent
  exact r.sqrt_le_norm_of_mem_segment h hd htangent hone hp

end

/-- Nothing of a realization is closer to the center than a half or further away
than the greatest radius.  If the part of a side up to its first inner point
and the edge behind it turn outwards, the vertices are not closer than that
point, and neither is the rest as soon as all sides are replaced.  The least
factor is one of these radii: that of the first inner point if the dimension is at
least the first-vertex dimension, and then the two parts do turn outwards.  So the
vertices lie between the two factors, and the rest does as soon as all sides are
replaced. -/
theorem radius_factors_bound_realizations (s : Settings ℝ)
    (hquarter : 1 / 4 ≤ s.edgeFraction) (hhalf : s.edgeFraction < 1 / 2)
    {σ : Type} [WordSource σ] :
    let e := s.edgeFraction
    let bound := max 1 (s.offsetFraction * √3 + 1 / 2)
    (1 / 2 ≤ s.minRadiusFactor ∧ s.minRadiusFactor ≤ 1 ∧
      1 ≤ s.maxRadiusFactor ∧ s.maxRadiusFactor = bound ∧
      s.offsetFraction = √(e - 1 / 4) ∧
      s.minRadiusFactor =
        (if firstVertexDimension ≤ s.dimension then √(1 + 3 * e * (e - 1)) else 1 / 2) ∧
      (firstVertexDimension ≤ s.dimension -> 12 * (1 / 2 - e) ^ 4 ≤ e - 1 / 4)) ∧
    (forall (source after : σ) (vertices : Array (Vec2 ℝ)),
      s.vertices.run.run source = (.ok vertices, after) ->
        s.Realizes vertices.toList) ∧
    (forall vertices, s.Realizes vertices ->
      (forall v, v ∈ vertices ->
        1 / 2 ≤ ‖v.toComplex‖ ∧ ‖v.toComplex‖ ≤ bound ∧
          s.minRadiusFactor ≤ ‖v.toComplex‖ ∧ ‖v.toComplex‖ ≤ s.maxRadiusFactor) ∧
      (forall v w, (v, w) ∈ closedEdges vertices ->
        forall p, p ∈ segment ℝ v.toComplex w.toComplex ->
          ‖p‖ ≤ bound ∧ ‖p‖ ≤ s.maxRadiusFactor) ∧
      (12 * (1 / 2 - e) ^ 4 ≤ e - 1 / 4 -> forall v, v ∈ vertices ->
        √(1 + 3 * e * (e - 1)) ≤ ‖v.toComplex‖) ∧
      (1 ≤ s.leastLevel ->
        (forall v w, (v, w) ∈ closedEdges vertices ->
          forall p, p ∈ segment ℝ v.toComplex w.toComplex ->
            1 / 2 ≤ ‖p‖ ∧
              (12 * (1 / 2 - e) ^ 4 ≤ e - 1 / 4 ->
                √(1 + 3 * e * (e - 1)) ≤ ‖p‖) ∧
              s.minRadiusFactor ≤ ‖p‖) ∧
        exists v, v ∈ vertices ∧ ‖v.toComplex‖ = bound)) := by
  intro e bound
  have h := proportions hquarter hhalf
  have hsquare : s.offsetFraction ^ 2 = e - 1 / 4 := h.offset_sq
  refine ⟨⟨s.half_le_minRadiusFactor, minRadiusFactor_le_one h.nonneg h.le_one,
    s.one_le_maxRadiusFactor, s.maxRadiusFactor_eq, s.offsetFraction_eq,
    s.minRadiusFactor_eq, fun hfirst => tangent_of_firstVertexDimension hfirst hhalf⟩,
    ?_, ?_⟩
  · intro source after vertices hrun
    exact realizes_of_vertices hrun
  · intro vertices hrealizes
    have hmem := hrealizes
    rcases hmem with ⟨levels, hlevels, r, rfl⟩
    refine ⟨?_, ?_, ?_, ?_⟩
    · intro v hv
      have hfactors := hrealizes.norm_mem h hv
      rcases List.mem_map.mp hv with ⟨d, hd, rfl⟩
      have hdisc := r.norm_of_mem_segment h hd (left_mem_segment ℝ _ _)
      exact ⟨hdisc.left, hdisc.right, hfactors⟩
    · intro v w hvw p hp
      have hle := hrealizes.norm_le_maxRadiusFactor h hvw hp
      exact ⟨hle.trans_eq s.maxRadiusFactor_eq, hle⟩
    · intro htangent v hv
      rw [← hsquare] at htangent
      rcases List.mem_map.mp hv with ⟨d, hd, rfl⟩
      exact r.sqrt_le_norm_start h hd htangent
    · intro hone
      have hleast := one_le_least hlevels hone
      constructor
      · intro v w hvw p hp
        have hfactor := hrealizes.minRadiusFactor_le_norm h hvw hp hone
        rcases r.exists_edge_of_mem_closedEdges hvw with ⟨d, hd, rfl, rfl⟩
        refine ⟨(r.norm_of_mem_segment h hd hp).left, ?_, hfactor⟩
        intro htangent
        rw [← hsquare] at htangent
        exact r.sqrt_le_norm_of_mem_segment h hd htangent hleast hp
      · rcases r.exists_norm_start_eq h hleast with ⟨d, hd, hnorm⟩
        exact ⟨d.start, List.mem_map.mpr ⟨d, hd, rfl⟩, hnorm⟩

/-- A standard snowflake with edges from the first to the third level is within the
circle of its triangle, and not within that of its first inner points. -/
theorem radius_factors_bound_standard_snowflakes :
    let s : Settings ℝ :=
      { maxLevel := 3, minLevel := 1, dimension := snowflakeDimension }
    1 / 4 ≤ s.edgeFraction ∧ s.edgeFraction < 1 / 2 ∧
      s.minRadiusFactor = √(1 / 3) ∧ s.maxRadiusFactor = 1 ∧
      exists vertices after,
        s.vertices.run.run (Twister.ofSeed Seed.default) = (.ok vertices, after) ∧
        (forall v w, (v, w) ∈ closedEdges vertices.toList ->
          forall p, p ∈ segment ℝ v.toComplex w.toComplex ->
            s.minRadiusFactor ≤ ‖p‖ ∧ ‖p‖ ≤ s.maxRadiusFactor) ∧
        exists v, v ∈ vertices.toList ∧ ‖v.toComplex‖ = s.maxRadiusFactor := by
  intro s
  have hthird : s.edgeFraction = 1 / 3 := edgeFraction_of_snowflakeDimension rfl
  have hquarter : 1 / 4 ≤ s.edgeFraction := by
    rw [hthird]
    norm_num
  have hhalf : s.edgeFraction < 1 / 2 := by
    rw [hthird]
    norm_num
  have hlevels : s.levels? =
      some { least := 1, greatest := 3, least_le := by decide } := rfl
  rcases exists_vertices hlevels (by decide) (Twister.ofSeed Seed.default) with
    ⟨vertices, after, hrun⟩
  rcases @radius_factors_bound_realizations s hquarter hhalf Twister _ with
    ⟨⟨_, _, _, hmax, _, hmin, _⟩, hruns, hbounds⟩
  rcases hbounds _ (hruns _ _ _ hrun) with ⟨_, hupper, _, hreplaced⟩
  rcases hreplaced (by decide) with ⟨hlower, hattained⟩
  have hleast : s.minRadiusFactor = √(1 / 3) := by
    rw [hmin, if_pos firstVertexDimension_le_snowflakeDimension, hthird]
    norm_num
  refine ⟨hquarter, hhalf, hleast, maxRadiusFactor_of_snowflakeDimension rfl, vertices,
    after, hrun, ?_, ?_⟩
  · intro v w hvw p hp
    exact ⟨(hlower v w hvw p hp).right.right, (hupper v w hvw p hp).right⟩
  · rw [hmax]
    exact hattained

end Settings

end SphereFixtures
