import SphereFixtures.Proofs.Fractal.Coverage
import SphereFixtures.Proofs.Fractal.SimplePolygon

/-!
# Lengths of edges

The vertices of a boundary are the starts of its edges, and each edge stops at the
next vertex.  All four parts of an edge have the same fraction of its length, so
the length of an edge follows from its level.
-/

namespace SphereFixtures

namespace Growth

variable {P : Type} {cut : Cut P}

/-- What an edge hands on to its parts holds of all the edges that are kept. -/
theorem of_mem_edges {I : Edge P -> Prop}
    (hparts : forall e d, I e -> d ∈ e.split cut -> I d) {growth : Growth} {a b : P}
    {level : Nat} (h : I { start := a, stop := b, level := level }) {d : Edge P}
    (hd : d ∈ growth.edges cut a b level) : I d := by
  induction growth generalizing a b level with
  | kept =>
      rw [List.mem_singleton.mp hd]
      exact h
  | replaced first second third fourth ih₁ ih₂ ih₃ ih₄ =>
      simp only [edges_replaced, List.mem_append] at hd
      rcases hd with ((hd | hd) | hd) | hd
      · exact ih₁ (hparts _ _ h (by simp [Edge.split])) hd
      · exact ih₂ (hparts _ _ h (by simp [Edge.split])) hd
      · exact ih₃ (hparts _ _ h (by simp [Edge.split])) hd
      · exact ih₄ (hparts _ _ h (by simp [Edge.split])) hd

end Growth

/-!
## The parts of an edge
-/

namespace Plane

variable {e f : ℝ} (hf : f ^ 2 = e - 1 / 4) (z w : ℂ)

include hf

theorem fraction_nonneg : 0 ≤ e := by
  linarith [sq_nonneg f]

theorem norm_near_sub : ‖along e z w - z‖ = e * ‖w - z‖ := by
  rw [norm_along_sub_start, abs_of_nonneg (fraction_nonneg hf)]

theorem norm_apex_sub_near : ‖apex f z w - along e z w‖ = e * ‖w - z‖ := by
  rw [norm_sub_rev, ← norm_near_sub_start z w (fraction_nonneg hf) hf,
    norm_near_sub hf]

theorem norm_far_sub_apex_eq : ‖along e w z - apex f z w‖ = e * ‖w - z‖ := by
  rw [norm_far_sub_apex z w (fraction_nonneg hf) hf, norm_near_sub hf,
    norm_sub_rev]

theorem norm_sub_far : ‖w - along e w z‖ = e * ‖w - z‖ := by
  rw [norm_sub_rev, norm_near_sub hf, norm_sub_rev]

end Plane

namespace Edge

open Plane

noncomputable def length (d : Edge (Vec2 ℝ)) : ℝ :=
  ‖d.stop.toComplex - d.start.toComplex‖

variable {e f : ℝ} (hf : f ^ 2 = e - 1 / 4)

include hf

theorem length_of_mem_split {d part : Edge (Vec2 ℝ)}
    (hpart : part ∈ d.split (Snowflake.cut e f)) : part.length = e * d.length := by
  have hnear := toComplex_cut_near e f d.start d.stop
  have hapex := toComplex_cut_apex e f d.start d.stop
  have hfar := toComplex_cut_far e f d.start d.stop
  simp only [split, List.mem_cons, List.not_mem_nil, or_false] at hpart
  rcases hpart with rfl | rfl | rfl | rfl
  · simp only [length, hnear]
    exact norm_near_sub hf _ _
  · simp only [length, hnear, hapex]
    exact norm_apex_sub_near hf _ _
  · simp only [length, hapex, hfar]
    exact norm_far_sub_apex_eq hf _ _
  · simp only [length, hfar]
    exact norm_sub_far hf _ _

/-- Whether an edge has the length of its level. -/
structure HasLevelLength (e : ℝ) (d : Edge (Vec2 ℝ)) : Prop where
  length_sq : d.length ^ 2 = 3 * e ^ (2 * d.level)

theorem HasLevelLength.split {d part : Edge (Vec2 ℝ)} (h : HasLevelLength e d)
    (hpart : part ∈ d.split (Snowflake.cut e f)) : HasLevelLength e part := by
  constructor
  rw [length_of_mem_split hf hpart, level_of_mem_split hpart, mul_pow, h.length_sq]
  ring

end Edge

/-!
## The sides of the triangle
-/

namespace Plane

theorem Corners.norm_sub_sq {z w : ℂ} (h : Corners z w) : ‖w - z‖ ^ 2 = 3 := by
  rw [← real_inner_self_eq_norm_sq]
  simp only [inner_sub_left, inner_sub_right, h.inner_start, h.inner_stop,
    h.inner_between, h.symm.inner_between]
  norm_num

end Plane

namespace Edge

open Plane Snowflake

theorem hasLevelLength_of_mem_sides (e : ℝ) {a b : Vec2 ℝ} (h : (a, b) ∈ sides) :
    HasLevelLength e { start := a, stop := b, level := 0 } := by
  have hside := (isSide_of_mem_sides h).corners.norm_sub_sq
  constructor
  rw [length, hside, Nat.mul_zero, pow_zero, mul_one]

/-- A vertex of a closed path is followed by the end of its edge. -/
theorem getElem?_map_start_of_path {P : Type} {edges : List (Edge P)} {a : P}
    (hpath : Path edges a a) {i : Nat} {d : Edge P} (hi : edges[i]? = some d) :
    (edges.map Edge.start)[i]? = some d.start ∧
      (edges.map Edge.start)[(i + 1) % edges.length]? = some d.stop := by
  rcases exists_next_of_path hpath hi with ⟨d', hnext, hstop⟩
  rw [List.getElem?_map, List.getElem?_map, hi, hnext, hstop]
  exact ⟨rfl, rfl⟩

end Edge

namespace Realization

open Plane Edge Snowflake

variable {levels : Levels} (r : Realization levels)

theorem hasLevelLength_of_mem_edges {e f : ℝ} (hf : f ^ 2 = e - 1 / 4)
    {d : Edge (Vec2 ℝ)}
    (hd : d ∈ r.edges (Snowflake.cut e f) cornerA cornerB cornerC) :
    HasLevelLength e d := by
  rcases r.exists_side_of_mem_edges hd with ⟨growth, _, a, b, hmem, hgrowth⟩
  exact Growth.of_mem_edges (fun _ _ h hpart => h.split hf hpart)
    (hasLevelLength_of_mem_sides e hmem) hgrowth

end Realization

namespace Settings

open Edge Snowflake

/-- The vertices of a boundary are the starts of its edges, each edge stops at the
vertex that comes next, the last one at the first vertex, and all are of levels
between the least and the greatest.  In exact arithmetic the length of an edge is
that of a side, scaled once for each of its levels. -/
theorem edges_close_with_level_lengths {α σ : Type} [Scalar α] [WordSource σ] :
    (forall (s : Settings α) (source after : σ) (vertices : Array (Vec2 α)),
      s.vertices.run.run source = (.ok vertices, after) ->
        exists edges : Array (Edge (Vec2 α)),
          s.boundary.run.run source = (.ok edges, after) ∧
            vertices = edges.map Edge.start ∧ 3 ≤ edges.size ∧
            forall (i : Nat) (d : Edge (Vec2 α)), edges[i]? = some d ->
              vertices[i]? = some d.start ∧
                vertices[(i + 1) % vertices.size]? = some d.stop ∧
                s.leastLevel ≤ d.level ∧ d.level ≤ s.maxLevel) ∧
    (forall (s : Settings ℝ) (source after : σ) (edges : Array (Edge (Vec2 ℝ))),
      s.offsetFraction ^ 2 = s.edgeFraction - 1 / 4 ->
        s.boundary.run.run source = (.ok edges, after) ->
          forall d, d ∈ edges ->
            ‖d.stop.toComplex - d.start.toComplex‖ ^ 2 =
              3 * s.edgeFraction ^ (2 * d.level)) := by
  constructor
  · intro s source after vertices h
    rcases exists_boundary_of_vertices h with ⟨edges, hedges, rfl⟩
    rcases exists_realization_of_boundary hedges with ⟨levels, hlevels, r, hr, _⟩
    rcases of_levels?_eq_some hlevels with ⟨hleast, hgreatest⟩
    have hpath := r.path_edges s.cut cornerA cornerB cornerC
    have hthree := r.three_le_length_edges s.cut cornerA cornerB cornerC
    rw [← hr] at hpath hthree
    refine ⟨edges, hedges, rfl, hthree, ?_⟩
    intro i d hd
    rw [← Array.getElem?_toList] at hd
    have hlevel := r.level_of_mem_edges s.cut cornerA cornerB cornerC
      (hr ▸ List.mem_of_getElem? hd)
    rcases getElem?_map_start_of_path hpath hd with ⟨hstart, hstop⟩
    refine ⟨?_, ?_, by omega, by omega⟩
    · rw [← Array.getElem?_toList, Array.toList_map]
      exact hstart
    · rw [← Array.getElem?_toList, Array.toList_map, Array.size_map]
      exact hstop
  · intro s source after edges hf hedges d hd
    rcases exists_realization_of_boundary hedges with ⟨levels, _, r, hr, _⟩
    have hmem : d ∈ edges.toList := Array.mem_toList_iff.mpr hd
    rw [hr] at hmem
    exact (r.hasLevelLength_of_mem_edges hf hmem).length_sq

/-- Standard snowflakes with edges of the levels from one to three. -/
theorem edges_close_with_lengths_of_thirds :
    let s : Settings ℝ :=
      { maxLevel := 3, minLevel := 1, dimension := snowflakeDimension }
    s.offsetFraction ^ 2 = s.edgeFraction - 1 / 4 ∧
      exists (vertices : Array (Vec2 ℝ)) (edges : Array (Edge (Vec2 ℝ)))
        (after : Twister),
        s.vertices.run.run (Twister.ofSeed Seed.default) = (.ok vertices, after) ∧
          s.boundary.run.run (Twister.ofSeed Seed.default) = (.ok edges, after) ∧
          (forall (i : Nat) (d : Edge (Vec2 ℝ)), edges[i]? = some d ->
            vertices[(i + 1) % vertices.size]? = some d.stop ∧
              1 ≤ d.level ∧ d.level ≤ 3) ∧
          forall d, d ∈ edges ->
            ‖d.stop.toComplex - d.start.toComplex‖ ^ 2 =
              3 * (1 / 3) ^ (2 * d.level) := by
  intro s
  have hthird : s.edgeFraction = 1 / 3 := edgeFraction_of_snowflakeDimension rfl
  have hoffset : s.offsetFraction ^ 2 = s.edgeFraction - 1 / 4 := by
    rw [offsetFraction_eq, hthird, Real.sq_sqrt (by norm_num)]
  have hlevels : s.levels? =
      some { least := 1, greatest := 3, least_le := by decide } := rfl
  rcases exists_vertices hlevels (by decide) (Twister.ofSeed Seed.default) with
    ⟨vertices, after, hrun⟩
  rcases @edges_close_with_level_lengths ℝ Twister _ _ with ⟨hclose, hlengths⟩
  rcases hclose s _ after vertices hrun with ⟨edges, hedges, _, _, hnext⟩
  refine ⟨hoffset, vertices, edges, after, hrun, hedges, ?_, ?_⟩
  · intro i d hd
    rcases hnext i d hd with ⟨_, hstop, hleast, hgreatest⟩
    have hone : s.leastLevel = 1 := by decide
    have hthree : s.maxLevel = 3 := rfl
    rw [hone] at hleast
    rw [hthree] at hgreatest
    exact ⟨hstop, by omega, by omega⟩
  · intro d hd
    rw [← hthird]
    exact hlengths s _ after edges hoffset hedges d hd

end Settings

end SphereFixtures
