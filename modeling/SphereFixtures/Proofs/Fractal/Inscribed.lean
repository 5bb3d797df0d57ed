import SphereFixtures.Proofs.Fractal.EvenGrowth
import SphereFixtures.Proofs.Fractal.RadiusFactors

/-!
# The inscribed disc

The least radius belongs to boundaries whose sides are replaced.  A side of the
triangle that stays whole passes the center at half the nominal radius, and from
the first-vertex dimension on this is inside of the disc.
-/

namespace SphereFixtures

namespace Plane

theorem norm_along_half {z w : ℂ} (h : Corners z w) : ‖along (1 / 2) z w‖ = 1 / 2 := by
  have hsquare : ‖along (1 / 2) z w‖ ^ 2 = (1 / 2) ^ 2 := by
    rw [← real_inner_self_eq_norm_sq, h.inner_along_along]
    norm_num
  exact (sq_eq_sq₀ (norm_nonneg _) (by norm_num)).mp hsquare

theorem along_half_mem_segment (z w : ℂ) : along (1 / 2) z w ∈ segment ℝ z w :=
  along_mem (convex_segment z w) (by norm_num) (by norm_num)
    (left_mem_segment ℝ z w) (right_mem_segment ℝ z w)

end Plane

/-- Whether no point of a closed polygon is closer to the center than a radius. -/
def ClearOf (radius : ℝ) (vertices : List (Vec2 ℝ)) : Prop :=
  forall v w, (v, w) ∈ closedEdges vertices ->
    forall p, p ∈ segment ℝ v.toComplex w.toComplex -> radius ≤ ‖p‖

namespace Growth

open Plane Snowflake

/-- A side that is replaced has its first inner point for a vertex. -/
theorem kept_or_near {e f : ℝ} {a b : Vec2 ℝ} (hside : IsSide a.toComplex b.toComplex)
    (growth : Growth) :
    growth = .kept ∨
      1 < (growth.edges (Snowflake.cut e f) a b 0).length ∧
        exists d, d ∈ growth.edges (Snowflake.cut e f) a b 0 ∧
          ‖d.start.toComplex‖ = √(1 + 3 * e * (e - 1)) := by
  cases growth with
  | kept => exact Or.inl rfl
  | replaced first second third fourth =>
      have hfirst := first.length_edges_pos (Snowflake.cut e f) a
        (Snowflake.cut e f a b).1 1
      rcases second.exists_mem_edges_start (Snowflake.cut e f)
        (Snowflake.cut e f a b).1 (Snowflake.cut e f a b).2.1 1 with ⟨d, hd, hstart⟩
      apply Or.inr
      constructor
      · have hsecond := List.length_pos_of_mem hd
        simp only [edges_replaced, List.length_append, Nat.zero_add]
        omega
      · refine ⟨d, ?_, ?_⟩
        · rw [edges_replaced]
          exact List.mem_append_left _
            (List.mem_append_left _ (List.mem_append_right _ hd))
        · rw [hstart, toComplex_cut_near, norm_eq_sqrt_real_inner,
            hside.corners.inner_along_along]

end Growth

namespace Realization

open Plane Snowflake

variable {levels : Levels}

/-- If no side is left whole, nothing is closer to the center than the first
inner points of the sides. -/
theorem clearOf_of_sides_replaced {e f : ℝ} (h : Proportions e f)
    (htangent : 12 * (1 / 2 - e) ^ 4 ≤ f ^ 2) (r : Realization levels)
    (hsides : forall side, side ∈ sides -> side ∉ closedEdges
      ((r.edges (Snowflake.cut e f) cornerA cornerB cornerC).map Edge.start)) :
    ClearOf √(1 + 3 * e * (e - 1))
      ((r.edges (Snowflake.cut e f) cornerA cornerB cornerC).map Edge.start) := by
  intro v w hvw p hp
  rcases r.exists_edge_of_mem_closedEdges hvw with ⟨d, hd, rfl, rfl⟩
  rcases r.exists_side_of_mem_edges hd with ⟨growth, _, a, b, hmem, hgrowth⟩
  have hside := isSide_of_mem_sides hmem
  cases growth with
  | kept =>
      rw [List.mem_singleton.mp hgrowth] at hvw
      exact absurd hvw (hsides (a, b) hmem)
  | replaced first second third fourth =>
      exact Growth.sqrt_le_norm_of_replaced h hside htangent hgrowth hp

/-- The boundary on which every side stays whole. -/
def triangle (hleast : levels.least = 0) : Realization levels :=
  have hfits : Growth.kept.Fits levels 0 :=
    ⟨Nat.le_of_eq hleast, Nat.zero_le levels.greatest⟩
  { ab := .kept
    bc := .kept
    ca := .kept
    ab_fits := hfits
    bc_fits := hfits
    ca_fits := hfits }

/-- A boundary is the triangle, or it has more vertices and an inner point of a side
among them. -/
theorem triangle_or_near {e f : ℝ} {levels : Levels} (r : Realization levels) :
    (r.edges (Snowflake.cut e f) cornerA cornerB cornerC).map Edge.start =
        [cornerA, cornerB, cornerC] ∨
      3 < (r.edges (Snowflake.cut e f) cornerA cornerB cornerC).length ∧
        exists d, d ∈ r.edges (Snowflake.cut e f) cornerA cornerB cornerC ∧
          ‖d.start.toComplex‖ = √(1 + 3 * e * (e - 1)) := by
  have hab := isSide_of_mem_sides (a := cornerA) (b := cornerB) (by simp [sides])
  have hbc := isSide_of_mem_sides (a := cornerB) (b := cornerC) (by simp [sides])
  have hca := isSide_of_mem_sides (a := cornerC) (b := cornerA) (by simp [sides])
  have hpos (growth : Growth) (a b : Vec2 ℝ) :=
    growth.length_edges_pos (Snowflake.cut e f) a b 0
  have hlength : (r.edges (Snowflake.cut e f) cornerA cornerB cornerC).length =
      (r.ab.edges (Snowflake.cut e f) cornerA cornerB 0).length +
        (r.bc.edges (Snowflake.cut e f) cornerB cornerC 0).length +
        (r.ca.edges (Snowflake.cut e f) cornerC cornerA 0).length := by
    rw [edges, List.length_append, List.length_append]
  have hpos_ab := hpos r.ab cornerA cornerB
  have hpos_bc := hpos r.bc cornerB cornerC
  have hpos_ca := hpos r.ca cornerC cornerA
  rcases Growth.kept_or_near hab r.ab with hkept_ab | ⟨hmore, d, hd, hnorm⟩
  · rcases Growth.kept_or_near hbc r.bc with hkept_bc | ⟨hmore, d, hd, hnorm⟩
    · rcases Growth.kept_or_near hca r.ca with hkept_ca | ⟨hmore, d, hd, hnorm⟩
      · rw [edges, hkept_ab, hkept_bc, hkept_ca]
        exact Or.inl rfl
      · exact Or.inr ⟨by omega, d, List.mem_append_right _ hd, hnorm⟩
    · exact Or.inr ⟨by omega, d, List.mem_append_left _ (List.mem_append_right _ hd),
        hnorm⟩
  · exact Or.inr ⟨by omega, d, List.mem_append_left _ (List.mem_append_left _ hd),
      hnorm⟩

end Realization

namespace Settings

open Plane Snowflake

/-- From the first-vertex dimension on, a boundary with a whole side comes closer
to the center than the least radius, in the middle of that side. -/
theorem norm_along_half_lt_minRadiusFactor {s : Settings ℝ}
    (hfirst : firstVertexDimension ≤ s.dimension) (hhalf : s.edgeFraction < 1 / 2)
    {side : Vec2 ℝ × Vec2 ℝ} (hside : side ∈ sides) :
    ‖along (1 / 2) side.1.toComplex side.2.toComplex‖ < s.minRadiusFactor := by
  have hnorm := norm_along_half (isSide_of_mem_sides hside).corners
  have hgap : 0 < (1 / 2 - s.edgeFraction) ^ 2 := by
    have hpos : 0 < 1 / 2 - s.edgeFraction := by linarith
    positivity
  rw [hnorm, minRadiusFactor_eq, if_pos hfirst]
  apply Real.lt_sqrt_of_sq_lt
  nlinarith

theorem clearOf_half {s : Settings ℝ} (hs : s.Reachable)
    {vertices : List (Vec2 ℝ)} (h : s.Realizes vertices) :
    ClearOf (1 / 2) vertices := by
  rcases h with ⟨levels, _, r, rfl⟩
  intro v w hvw p hp
  rcases r.exists_edge_of_mem_closedEdges hvw with ⟨d, hd, rfl, rfl⟩
  exact (r.norm_of_mem_segment hs.proportions hd hp).left

/-- From the first-vertex dimension on, only a side that stays whole meets the
disc of the least radius; below it the disc is that of half the radius. -/
theorem clearOf_iff {s : Settings ℝ} (hs : s.Reachable)
    {vertices : List (Vec2 ℝ)} (h : s.Realizes vertices) :
    ClearOf s.minRadiusFactor vertices <->
      s.dimension < firstVertexDimension ∨
        forall side, side ∈ sides -> side ∉ closedEdges vertices := by
  have hhalf := hs.edgeFraction_lt_half
  have hproportions := hs.proportions
  have hcenter := clearOf_half hs h
  rcases h with ⟨levels, _, r, rfl⟩
  rcases lt_or_ge s.dimension firstVertexDimension with hbelow | hfirst
  · rw [minRadiusFactor_eq, if_neg hbelow.not_ge]
    exact iff_of_true hcenter (Or.inl hbelow)
  · constructor
    · intro hclear
      apply Or.inr
      intro side hside hedge
      have hlt := norm_along_half_lt_minRadiusFactor hfirst hhalf hside
      exact absurd (hclear _ _ hedge _ (along_half_mem_segment _ _)) hlt.not_ge
    · rintro (hbelow | hsides)
      · exact absurd hbelow hfirst.not_gt
      · have htangent := tangent_of_firstVertexDimension hfirst hhalf
        rw [← hproportions.offset_sq] at htangent
        rw [minRadiusFactor_eq, if_pos hfirst]
        exact r.clearOf_of_sides_replaced hproportions htangent hsides

/-- From the first-vertex dimension on, the least radius is that of the inner points
of the sides. -/
theorem Realizes.triangle_or_near {s : Settings ℝ}
    (hfirst : firstVertexDimension ≤ s.dimension) {vertices : List (Vec2 ℝ)}
    (h : s.Realizes vertices) :
    vertices = [cornerA, cornerB, cornerC] ∨
      3 < vertices.length ∧
        exists v, v ∈ vertices ∧ ‖v.toComplex‖ = s.minRadiusFactor := by
  rcases h with ⟨levels, _, r, rfl⟩
  rw [minRadiusFactor_eq, if_pos hfirst, List.length_map]
  refine r.triangle_or_near.imp_right ?_
  rintro ⟨hmore, d, hd, hnorm⟩
  exact ⟨hmore, d.start, List.mem_map_of_mem hd, hnorm⟩

theorem norm_of_mem_triangle {v : Vec2 ℝ}
    (hv : v ∈ [(cornerA : Vec2 ℝ), cornerB, cornerC]) : ‖v.toComplex‖ = 1 := by
  have hside : exists w, (v, w) ∈ (sides : List (Vec2 ℝ × Vec2 ℝ)) := by
    simp only [List.mem_cons, List.not_mem_nil, or_false] at hv
    rcases hv with rfl | rfl | rfl
    · exact ⟨cornerB, by simp [sides]⟩
    · exact ⟨cornerC, by simp [sides]⟩
    · exact ⟨cornerA, by simp [sides]⟩
  rcases hside with ⟨w, hw⟩
  exact (isSide_of_mem_sides hw).corners.norm_start

/-- With sides that may stay whole there is a boundary on which all of them do. -/
theorem realizes_triangle {s : Settings ℝ} (hmax : 0 ≤ s.maxLevel)
    (hleast : s.leastLevel < 1) : s.Realizes [cornerA, cornerB, cornerC] := by
  rcases levels?_eq_some hmax with ⟨levels, hlevels, hlevel, _⟩
  have hzero : levels.least = 0 := by omega
  exact ⟨levels, hlevels, Realization.triangle hzero, rfl⟩

/-- No boundary comes closer to the center than half the nominal radius.  It stays
out of the disc of the least radius exactly if the dimension is below the
first-vertex dimension or no side of the triangle is an edge of it.  For given
settings all boundaries stay out exactly if the dimension is below or the sides
are always replaced. -/
theorem inscribed_disc_clear_iff {s : Settings ℝ} (hs : s.Reachable) {σ : Type}
    [WordSource σ] :
    (forall (source after : σ) (vertices : Array (Vec2 ℝ)),
      s.vertices.run.run source = (.ok vertices, after) ->
        s.Realizes vertices.toList) ∧
    (forall vertices, s.Realizes vertices ->
      ClearOf (1 / 2) vertices ∧
        (ClearOf s.minRadiusFactor vertices <->
          s.dimension < firstVertexDimension ∨
            forall side, side ∈ sides -> side ∉ closedEdges vertices)) ∧
    (0 ≤ s.maxLevel ->
      ((forall vertices, s.Realizes vertices ->
          ClearOf s.minRadiusFactor vertices) <->
        s.dimension < firstVertexDimension ∨ 1 ≤ s.leastLevel)) := by
  refine ⟨?_, ?_, ?_⟩
  · intro source after vertices hrun
    exact realizes_of_vertices hrun
  · intro vertices h
    exact ⟨clearOf_half hs h, clearOf_iff hs h⟩
  · intro hmax
    constructor
    · intro hclear
      by_contra hnot
      push Not at hnot
      have htriangle := realizes_triangle hmax hnot.right
      have hside : (cornerA, cornerB) ∈ (sides : List (Vec2 ℝ × Vec2 ℝ)) := by
        simp [sides]
      have hedge : (cornerA, cornerB) ∈
          closedEdges [(cornerA : Vec2 ℝ), cornerB, cornerC] := by
        simp [closedEdges]
      rcases (clearOf_iff hs htriangle).mp (hclear _ htriangle) with hbelow | hsides
      · exact absurd hbelow hnot.left.not_gt
      · exact hsides _ hside hedge
    · rintro (hbelow | hleast) vertices h
      · exact (clearOf_iff hs h).mpr (Or.inl hbelow)
      · intro v w hvw p hp
        exact h.minRadiusFactor_le_norm hs.proportions hvw hp hleast

/-- Standard snowflakes with edges from the first to the third level stay out of
the circle of their first inner points. -/
theorem inscribed_disc_clear_of_first_to_third_level :
    let s : Settings ℝ :=
      { maxLevel := 3, minLevel := 1, dimension := snowflakeDimension }
    s.Reachable ∧ s.minRadiusFactor = √(1 / 3) ∧
      forall (after : Twister) (vertices : Array (Vec2 ℝ)),
        s.vertices.run.run (Twister.ofSeed Seed.default) = (.ok vertices, after) ->
          ClearOf √(1 / 3) vertices.toList := by
  intro s
  have hs : s.Reachable :=
    .set (.minLevel 1) (.set (.maxLevel 3) .initial rfl) rfl
  have hradius : s.minRadiusFactor = √(1 / 3) := by
    rw [minRadiusFactor_eq, if_pos firstVertexDimension_le_snowflakeDimension,
      edgeFraction_of_snowflakeDimension rfl]
    norm_num
  rcases @inscribed_disc_clear_iff s hs Twister _ with ⟨hruns, _, hlevels⟩
  refine ⟨hs, hradius, ?_⟩
  intro after vertices hrun
  rw [← hradius]
  exact (hlevels (by decide)).mpr (Or.inr (by decide)) _ (hruns _ _ _ hrun)

/-- The disc of the standard snowflake is not inside of a triangle whose sides
are never replaced. -/
theorem inscribed_disc_meets_triangle :
    let s : Settings ℝ :=
      { maxLevel := 0, minLevel := -1, dimension := snowflakeDimension }
    s.Reachable ∧ exists vertices after,
      s.vertices.run.run (Twister.ofSeed Seed.default) = (.ok vertices, after) ∧
        (cornerA, cornerB) ∈ closedEdges vertices.toList ∧
        exists p, p ∈ segment ℝ cornerA.toComplex cornerB.toComplex ∧
          ‖p‖ = 1 / 2 ∧ ‖p‖ < s.minRadiusFactor := by
  intro s
  have hs : s.Reachable := .set (.maxLevel 0) .initial rfl
  have hside : (cornerA, cornerB) ∈ (sides : List (Vec2 ℝ × Vec2 ℝ)) := by
    simp [sides]
  have hlevels : s.levels? = some (Levels.single 0) := rfl
  rcases exists_vertices_of_single hlevels rfl (Twister.ofSeed Seed.default) with
    ⟨after, hrun⟩
  have hlt := norm_along_half_lt_minRadiusFactor
    firstVertexDimension_le_snowflakeDimension hs.edgeFraction_lt_half hside
  refine ⟨hs, _, after, hrun, ?_, _, along_half_mem_segment _ _,
    norm_along_half (isSide_of_mem_sides hside).corners, hlt⟩
  exact List.mem_cons_self

end Settings

end SphereFixtures
