import SphereFixtures.Proofs.Fractal.Dimension
import SphereFixtures.Proofs.Fractal.Separation
import SphereFixtures.Random.Seed

/-!
# Boundaries are simple polygons

The edges that an edge grows into form an arc: only neighbours meet, and only
where one stops and the other one starts.  Arcs on the two sides of a line are
joined through the gate on it.  Three arcs around the triangle close up to a
simple polygon, whatever the levels are at which the edges are kept.
-/

namespace SphereFixtures

/-!
## Arcs
-/

namespace Edge

/-- The points of an edge. -/
def points (d : Edge (Vec2 ℝ)) : Set ℂ :=
  segment ℝ d.start.toComplex d.stop.toComplex

theorem start_mem_points (d : Edge (Vec2 ℝ)) : d.start.toComplex ∈ d.points :=
  left_mem_segment ℝ _ _

theorem stop_mem_points (d : Edge (Vec2 ℝ)) : d.stop.toComplex ∈ d.points :=
  right_mem_segment ℝ _ _

/-- Whether two edges have no point in common but the one where the first stops
and the second starts. -/
def LeadsInto (d d' : Edge (Vec2 ℝ)) : Prop :=
  forall p, p ∈ d.points -> p ∈ d'.points ->
    d.stop.toComplex = p ∧ d'.start.toComplex = p

/-- Edges that meet their neighbours only, where the ends of the whole are on
the first and on the last edge alone. -/
structure Arc (edges : List (Edge (Vec2 ℝ))) (a b : ℂ) : Prop where
  proper : forall d, d ∈ edges -> d.start.toComplex ≠ d.stop.toComplex
  start_eq : forall d, d ∈ edges -> a ∈ d.points -> d.start.toComplex = a
  stop_eq : forall d, d ∈ edges -> b ∈ d.points -> d.stop.toComplex = b
  pairwise : edges.Pairwise LeadsInto

theorem arc_singleton {d : Edge (Vec2 ℝ)}
    (hproper : d.start.toComplex ≠ d.stop.toComplex) :
    Arc [d] d.start.toComplex d.stop.toComplex := by
  refine ⟨?_, ?_, ?_, List.pairwise_singleton _ _⟩
  · intro d' hd'
    rw [List.mem_singleton.mp hd']
    exact hproper
  · intro d' hd' _
    rw [List.mem_singleton.mp hd']
  · intro d' hd' _
    rw [List.mem_singleton.mp hd']

/-- Whether edges stay in a region. -/
def Within (edges : List (Edge (Vec2 ℝ))) (S : Set ℂ) : Prop :=
  forall d, d ∈ edges -> d.points ⊆ S

theorem Within.append {edges others : List (Edge (Vec2 ℝ))} {S : Set ℂ}
    (hedges : Within edges S) (hothers : Within others S) :
    Within (edges ++ others) S := by
  intro d hd
  rcases List.mem_append.mp hd with hd | hd
  · exact hedges d hd
  · exact hothers d hd

open Plane

/-- Two arcs are one if they are on different sides of a line and meet at its
gate. -/
theorem Arc.append {edges others : List (Edge (Vec2 ℝ))} {a gate b z w : ℂ}
    (hedges : Arc edges a gate) (hothers : Arc others gate b)
    (hwithin : Within edges (gated gate z w))
    (hwithin' : Within others (gated gate w z))
    (ha : a ∉ gated gate w z) (hb : b ∉ gated gate z w) :
    Arc (edges ++ others) a b := by
  refine ⟨?_, ?_, ?_, ?_⟩
  · intro d hd
    rcases List.mem_append.mp hd with hd | hd
    · exact hedges.proper d hd
    · exact hothers.proper d hd
  · intro d hd hmem
    rcases List.mem_append.mp hd with hd | hd
    · exact hedges.start_eq d hd hmem
    · exact absurd (hwithin' d hd hmem) ha
  · intro d hd hmem
    rcases List.mem_append.mp hd with hd | hd
    · exact absurd (hwithin d hd hmem) hb
    · exact hothers.stop_eq d hd hmem
  · rw [List.pairwise_append]
    refine ⟨hedges.pairwise, hothers.pairwise, ?_⟩
    intro d hd d' hd' p hp hp'
    have hgate := eq_gate_of_mem (hwithin d hd hp) (hwithin' d' hd' hp')
    rw [hgate] at hp hp' ⊢
    exact ⟨hedges.stop_eq d hd hp, hothers.start_eq d' hd' hp'⟩

end Edge

namespace Growth

open Plane Edge

variable {e f : ℝ} (h : Proportions e f)

include h

theorem within_of_holds {growth : Growth} {a b : Vec2 ℝ} {level : Nat} {S : Set ℂ}
    (hconvex : Convex ℝ S) (hholds : Holds S f a.toComplex b.toComplex) :
    Within (growth.edges (Snowflake.cut e f) a b level) S := by
  intro d hd
  exact segment_subset_of_holds hconvex h.nonneg h.le_one h.offset_sq hholds hd

section

variable {first second third fourth : Growth} {a b : Vec2 ℝ} (level : Nat)
  (hne : a.toComplex ≠ b.toComplex)

include hne

/-- The first two parts meet at the first inner point, on the line that halves the
way from the start to the middle vertex. -/
theorem arc_first_half {p q : Vec2 ℝ}
    (hp : p.toComplex = along e a.toComplex b.toComplex)
    (hq : q.toComplex = apex f a.toComplex b.toComplex)
    (hfirst : Arc (first.edges (Snowflake.cut e f) a p level)
      a.toComplex p.toComplex)
    (hsecond : Arc (second.edges (Snowflake.cut e f) p q level)
      p.toComplex q.toComplex) :
    Arc (first.edges (Snowflake.cut e f) a p level ++
      second.edges (Snowflake.cut e f) p q level) a.toComplex q.toComplex := by
  have hline := norm_near_sub_start a.toComplex b.toComplex h.nonneg h.offset_sq
  have hstart := apex_ne_start (f := f) hne
  rw [hp] at hfirst hsecond
  rw [hq] at hsecond ⊢
  apply hfirst.append hsecond
  · apply within_of_holds h (convex_gated hline)
    rw [hp]
    exact holds_gated_first h hne
  · apply within_of_holds h (convex_gated hline.symm)
    rw [hp, hq]
    exact holds_gated_second h hne
  · exact not_mem_gated hline.symm hstart
  · exact not_mem_gated hline hstart.symm

theorem arc_second_half {q r : Vec2 ℝ}
    (hq : q.toComplex = apex f a.toComplex b.toComplex)
    (hr : r.toComplex = along e b.toComplex a.toComplex)
    (hthird : Arc (third.edges (Snowflake.cut e f) q r level)
      q.toComplex r.toComplex)
    (hfourth : Arc (fourth.edges (Snowflake.cut e f) r b level)
      r.toComplex b.toComplex) :
    Arc (third.edges (Snowflake.cut e f) q r level ++
      fourth.edges (Snowflake.cut e f) r b level) q.toComplex b.toComplex := by
  have hline := norm_far_sub_apex a.toComplex b.toComplex h.nonneg h.offset_sq
  have hstop := apex_ne_stop (f := f) hne
  rw [hr] at hthird hfourth
  rw [hq] at hthird ⊢
  apply hthird.append hfourth
  · apply within_of_holds h (convex_gated hline)
    rw [hq, hr]
    exact holds_gated_third h hne
  · apply within_of_holds h (convex_gated hline.symm)
    rw [hr]
    exact holds_gated_fourth h hne
  · exact not_mem_gated hline.symm hstop.symm
  · exact not_mem_gated hline hstop

end

/-- Whatever an edge grows into is an arc from its start to its stop. -/
theorem arc_edges {growth : Growth} {a b : Vec2 ℝ} {level : Nat}
    (hne : a.toComplex ≠ b.toComplex) :
    Arc (growth.edges (Snowflake.cut e f) a b level) a.toComplex b.toComplex := by
  induction growth generalizing a b level with
  | kept => exact arc_singleton hne
  | replaced first second third fourth ih₁ ih₂ ih₃ ih₄ =>
      have hp := toComplex_cut_near e f a b
      have hq := toComplex_cut_apex e f a b
      have hr := toComplex_cut_far e f a b
      have hhalves := norm_apex_sub_start (f := f) a.toComplex b.toComplex
      have hne₁ := start_ne_near h hne
      have hne₂ := near_ne_apex h hne
      have hne₃ := apex_ne_far h hne
      have hne₄ := (start_ne_near h hne.symm).symm
      rcases holds_gated_first_half h hne with ⟨hholds₁, hholds₂⟩
      rcases holds_gated_second_half h hne with ⟨hholds₃, hholds₄⟩
      rw [← hp] at hne₁
      rw [← hp, ← hq] at hne₂ hholds₁ hholds₂
      rw [← hq, ← hr] at hne₃ hholds₃ hholds₄
      rw [← hr] at hne₄
      rw [← hq] at hhalves
      have hleft := arc_first_half h (level + 1) hne hp hq (ih₁ hne₁) (ih₂ hne₂)
      have hright := arc_second_half h (level + 1) hne hq hr (ih₃ hne₃) (ih₄ hne₄)
      rw [edges_replaced, List.append_assoc]
      apply hleft.append hright
      · exact (within_of_holds h (convex_gated hhalves) hholds₁).append
          (within_of_holds h (convex_gated hhalves) hholds₂)
      · exact (within_of_holds h (convex_gated hhalves.symm) hholds₃).append
          (within_of_holds h (convex_gated hhalves.symm) hholds₄)
      · exact not_mem_gated hhalves.symm hne.symm
      · exact not_mem_gated hhalves hne

end Growth

/-!
## Closed polygons
-/

/-- A closed polygon on which consecutive edges share their common vertex only,
and any other two edges are disjoint. -/
structure SimplePolygon (vertices : List (Vec2 ℝ)) : Prop where
  three_le : 3 ≤ vertices.length
  nodup : vertices.Nodup
  consecutive : forall {i : Nat} {v w v' w' : Vec2 ℝ},
    (closedEdges vertices)[i]? = some (v, w) ->
    (closedEdges vertices)[(i + 1) % vertices.length]? = some (v', w') ->
    segment ℝ v.toComplex w.toComplex ∩ segment ℝ v'.toComplex w'.toComplex =
      {w.toComplex}
  apart : forall {i j : Nat} {v w v' w' : Vec2 ℝ},
    (closedEdges vertices)[i]? = some (v, w) ->
    (closedEdges vertices)[j]? = some (v', w') ->
    i ≠ j -> (i + 1) % vertices.length ≠ j -> (j + 1) % vertices.length ≠ i ->
    Disjoint (segment ℝ v.toComplex w.toComplex)
      (segment ℝ v'.toComplex w'.toComplex)

namespace Edge

/-- Whether two edges have no point in common but one where one of them stops and
the other one starts. -/
def Meets (d d' : Edge (Vec2 ℝ)) : Prop :=
  forall p, p ∈ d.points -> p ∈ d'.points ->
    d.stop.toComplex = p ∧ d'.start.toComplex = p ∨
      d.start.toComplex = p ∧ d'.stop.toComplex = p

theorem Meets.symm {d d' : Edge (Vec2 ℝ)} (h : Meets d d') : Meets d' d := by
  intro p hp hp'
  rcases h p hp' hp with ⟨hstop, hstart⟩ | ⟨hstart, hstop⟩
  · exact Or.inr ⟨hstart, hstop⟩
  · exact Or.inl ⟨hstop, hstart⟩

theorem LeadsInto.meets {d d' : Edge (Vec2 ℝ)} (h : LeadsInto d d') :
    Meets d d' := by
  intro p hp hp'
  exact Or.inl (h p hp hp')

/-- Edges of which no two meet but at their ends. -/
structure Circuit (edges : List (Edge (Vec2 ℝ))) : Prop where
  proper : forall d, d ∈ edges -> d.start.toComplex ≠ d.stop.toComplex
  pairwise : edges.Pairwise Meets

namespace Circuit

variable {edges : List (Edge (Vec2 ℝ))} (h : Circuit edges) {i j : Nat}
  {d d' : Edge (Vec2 ℝ)}

include h

theorem meets (hi : edges[i]? = some d) (hj : edges[j]? = some d') (hne : i ≠ j) :
    Meets d d' := by
  rcases List.getElem?_eq_some_iff.mp hi with ⟨hilt, rfl⟩
  rcases List.getElem?_eq_some_iff.mp hj with ⟨hjlt, rfl⟩
  have hpairwise := List.pairwise_iff_getElem.mp h.pairwise
  rcases Nat.lt_or_gt_of_ne hne with hlt | hgt
  · exact hpairwise i j hilt hjlt hlt
  · exact (hpairwise j i hjlt hilt hgt).symm

theorem start_ne (hi : edges[i]? = some d) (hj : edges[j]? = some d')
    (hne : i ≠ j) : d.start.toComplex ≠ d'.start.toComplex := by
  intro heq
  have hmem : d.start.toComplex ∈ d'.points := by
    rw [heq]
    exact d'.start_mem_points
  rcases h.meets hi hj hne _ d.start_mem_points hmem with ⟨hstop, _⟩ | ⟨_, hstop⟩
  · exact h.proper d (List.mem_of_getElem? hi) hstop.symm
  · rw [heq] at hstop
    exact h.proper d' (List.mem_of_getElem? hj) hstop.symm

/-- The start of an edge tells its position. -/
theorem eq_of_start_eq (hi : edges[i]? = some d) (hj : edges[j]? = some d')
    (heq : d.start.toComplex = d'.start.toComplex) : i = j := by
  by_contra hne
  exact h.start_ne hi hj hne heq

theorem nodup_starts : (edges.map Edge.start).Nodup := by
  rw [List.Nodup, List.pairwise_iff_getElem]
  intro i j hi hj hlt heq
  simp only [List.getElem_map] at heq
  have hstart := congrArg Vec2.toComplex heq
  rw [List.length_map] at hi hj
  exact h.start_ne (List.getElem?_eq_getElem hi) (List.getElem?_eq_getElem hj)
    hlt.ne hstart

end Circuit

/-- On a closed path the edge after the last one is the first. -/
theorem stop_eq_start_of_path {P : Type} {edges : List (Edge P)} {a : P}
    (hpath : Path edges a a) {i : Nat} {d d' : Edge P} (hi : edges[i]? = some d)
    (hnext : edges[(i + 1) % edges.length]? = some d') : d.stop = d'.start := by
  have hstop : (edges.map Edge.stop)[i]? = some d.stop := by
    rw [List.getElem?_map, hi]
    rfl
  have hlt : i < (edges.map Edge.start).length := by
    rw [List.length_map]
    exact (List.getElem?_eq_some_iff.mp hi).choose
  rw [map_stop_eq_rotate hpath, List.getElem?_rotate hlt, List.length_map,
    List.getElem?_map, hnext] at hstop
  exact (Option.some.inj hstop).symm

/-- Among three or more edges neither the next one nor the one after it is the
same. -/
theorem ne_next_position {i n : Nat} (hi : i < n) (hn : 3 ≤ n) :
    i ≠ (i + 1) % n ∧ i ≠ ((i + 1) % n + 1) % n := by
  rcases Nat.lt_or_ge (i + 1) n with hnext | hlast
  · rw [Nat.mod_eq_of_lt hnext]
    refine ⟨by omega, ?_⟩
    rcases Nat.lt_or_ge (i + 1 + 1) n with hafter | hlast
    · rw [Nat.mod_eq_of_lt hafter]
      omega
    · have hend : i + 1 + 1 = n := by omega
      rw [hend, Nat.mod_self]
      omega
  · have hend : i + 1 = n := by omega
    rw [hend, Nat.mod_self, Nat.mod_eq_of_lt (by omega)]
    omega

theorem exists_next_of_path {P : Type} {edges : List (Edge P)} {a : P}
    (hpath : Path edges a a) {i : Nat} {d : Edge P} (hi : edges[i]? = some d) :
    exists d', edges[(i + 1) % edges.length]? = some d' ∧ d.stop = d'.start := by
  have hlt : i < edges.length := (List.getElem?_eq_some_iff.mp hi).choose
  have hnext : (i + 1) % edges.length < edges.length := Nat.mod_lt _ (by omega)
  have hd' := List.getElem?_eq_getElem hnext
  exact ⟨_, hd', stop_eq_start_of_path hpath hi hd'⟩

namespace Circuit

variable {edges : List (Edge (Vec2 ℝ))} (h : Circuit edges) {a : Vec2 ℝ}
  (hpath : Path edges a a) {i j : Nat} {d d' : Edge (Vec2 ℝ)}

include h hpath

/-- Consecutive edges share one point, also if they could meet at two. -/
theorem inter_next (hthree : 3 ≤ edges.length) (hi : edges[i]? = some d)
    (hnext : edges[(i + 1) % edges.length]? = some d') :
    d.points ∩ d'.points = {d.stop.toComplex} := by
  have hshared := stop_eq_start_of_path hpath hi hnext
  rcases ne_next_position (List.getElem?_eq_some_iff.mp hi).choose hthree with
    ⟨hne, hne'⟩
  apply Set.eq_singleton_iff_unique_mem.mpr
  constructor
  · constructor
    · exact d.stop_mem_points
    · rw [hshared]
      exact d'.start_mem_points
  · rintro p ⟨hp, hp'⟩
    rcases h.meets hi hnext hne p hp hp' with ⟨hstop, _⟩ | ⟨hstart, hstop⟩
    · exact hstop.symm
    · -- the edge behind both would start where the first one does
      rcases exists_next_of_path hpath hnext with ⟨d'', hd'', hshared'⟩
      have hback : d.start.toComplex = d''.start.toComplex := by
        rw [hstart, ← hshared', hstop]
      exact absurd (h.eq_of_start_eq hi hd'' hback) hne'

/-- Edges that do not follow each other are disjoint. -/
theorem disjoint_points (hi : edges[i]? = some d) (hj : edges[j]? = some d')
    (hne : i ≠ j) (hij : (i + 1) % edges.length ≠ j)
    (hji : (j + 1) % edges.length ≠ i) : Disjoint d.points d'.points := by
  rw [Set.disjoint_left]
  intro p hp hp'
  rcases h.meets hi hj hne p hp hp' with ⟨hstop, hstart⟩ | ⟨hstart, hstop⟩
  · rcases exists_next_of_path hpath hi with ⟨d'', hd'', hshared⟩
    apply hij
    apply h.eq_of_start_eq hd'' hj
    rw [← hshared, hstop, hstart]
  · rcases exists_next_of_path hpath hj with ⟨d'', hd'', hshared⟩
    apply hji
    apply h.eq_of_start_eq hd'' hi
    rw [← hshared, hstop, hstart]

theorem simplePolygon (hthree : 3 ≤ edges.length) :
    SimplePolygon (edges.map Edge.start) := by
  have hedge {i : Nat} {v w : Vec2 ℝ}
      (hi : (closedEdges (edges.map Edge.start))[i]? = some (v, w)) :
      exists d, edges[i]? = some d ∧ d.start = v ∧ d.stop = w := by
    rw [closedEdges_map_start hpath, List.getElem?_map, Option.map_eq_some_iff] at hi
    rcases hi with ⟨d, hd, heq⟩
    cases heq
    exact ⟨d, hd, rfl, rfl⟩
  refine ⟨?_, h.nodup_starts, ?_, ?_⟩
  · rw [List.length_map]
    exact hthree
  · intro i v w v' w' hi hj
    rcases hedge hi with ⟨d, hd, rfl, rfl⟩
    rcases hedge hj with ⟨d', hd', rfl, rfl⟩
    rw [List.length_map] at hd'
    exact h.inter_next hpath hthree hd hd'
  · intro i j v w v' w' hi hj hne hij hji
    rcases hedge hi with ⟨d, hd, rfl, rfl⟩
    rcases hedge hj with ⟨d', hd', rfl, rfl⟩
    rw [List.length_map] at hij hji
    exact h.disjoint_points hpath hd hd' hne hij hji

end Circuit

end Edge

/-!
## Around the triangle
-/

namespace Plane

theorem third_corner_eq : third * (third * 1) = -(1 + third * 1) := by
  apply Complex.ext
  · simp [third]
    linear_combination (-1 / 4) * sq_sqrt_three
  · simp [third]
    ring

theorem corners_sum :
    Snowflake.cornerA.toComplex + Snowflake.cornerB.toComplex +
      Snowflake.cornerC.toComplex = 0 := by
  rw [toComplex_cornerA, toComplex_cornerB, toComplex_cornerC, third_corner_eq]
  ring

theorem Corners.ne {z w : ℂ} (h : Corners z w) : z ≠ w := by
  intro heq
  have hbetween := h.inner_between
  rw [← heq, h.inner_start] at hbetween
  norm_num at hbetween

/-- The third corner lies across from the middle of a side. -/
theorem Corners.norm_sub_third {z w u : ℂ} (h : Corners z w) (hsum : z + w + u = 0) :
    ‖w - z‖ = ‖w - u‖ := by
  rw [h.norm_sub_eq, ← eq_neg_of_add_eq_zero_right hsum]

end Plane

namespace Growth

open Plane Edge

variable {e f : ℝ} (h : Proportions e f) {growth : Growth} {a b c : Vec2 ℝ}
  {level : Nat} (hside : IsSide a.toComplex b.toComplex)
  (hsum : a.toComplex + b.toComplex + c.toComplex = 0)

include h hside hsum

/-- A side stays away from the line through its stop and the center. -/
theorem within_gated_stop :
    Within (growth.edges (Snowflake.cut e f) a b level)
      (gated b.toComplex a.toComplex c.toComplex) := by
  have hholds := hside.holds_gated_stop h.offset_nonneg
  rw [← eq_neg_of_add_eq_zero_right hsum] at hholds
  exact within_of_holds h (convex_gated (hside.corners.norm_sub_third hsum)) hholds

theorem within_gated_start :
    Within (growth.edges (Snowflake.cut e f) a b level)
      (gated a.toComplex b.toComplex c.toComplex) := by
  have hholds := hside.holds_gated_start h.offset_nonneg
  rw [add_comm a.toComplex] at hsum
  rw [add_comm, ← eq_neg_of_add_eq_zero_right hsum] at hholds
  exact within_of_holds h
    (convex_gated (hside.corners.symm.norm_sub_third hsum)) hholds

end Growth

namespace Realization

open Plane Edge Snowflake

variable {levels : Levels} (r : Realization levels)

theorem three_le_length_edges {P : Type} (cut : Cut P) (a b c : P) :
    3 ≤ (r.edges cut a b c).length := by
  have hab := r.ab.length_edges_pos cut a b 0
  have hbc := r.bc.length_edges_pos cut b c 0
  have hca := r.ca.length_edges_pos cut c a 0
  rw [edges, List.length_append, List.length_append]
  omega

variable {e f : ℝ} (h : Proportions e f)

include h

/-- The three sides meet at the corners only. -/
theorem circuit_edges {a b c : Vec2 ℝ} (hab : IsSide a.toComplex b.toComplex)
    (hbc : IsSide b.toComplex c.toComplex) (hca : IsSide c.toComplex a.toComplex)
    (hsum : a.toComplex + b.toComplex + c.toComplex = 0) :
    Circuit (r.edges (Snowflake.cut e f) a b c) := by
  have hsum' : b.toComplex + c.toComplex + a.toComplex = 0 := by
    rw [← hsum]
    ring
  have hsum'' : c.toComplex + a.toComplex + b.toComplex = 0 := by
    rw [← hsum]
    ring
  have arc_ab : Arc (r.ab.edges (Snowflake.cut e f) a b 0) _ _ :=
    Growth.arc_edges h hab.corners.ne
  have arc_bc : Arc (r.bc.edges (Snowflake.cut e f) b c 0) _ _ :=
    Growth.arc_edges h hbc.corners.ne
  have arc_ca : Arc (r.ca.edges (Snowflake.cut e f) c a 0) _ _ :=
    Growth.arc_edges h hca.corners.ne
  have hline := hab.corners.norm_sub_third hsum
  have arc_abc := arc_ab.append arc_bc
    (Growth.within_gated_stop h hab hsum) (Growth.within_gated_start h hbc hsum')
    (not_mem_gated hline.symm hca.corners.ne)
    (not_mem_gated hline hca.corners.ne.symm)
  constructor
  · intro d hd
    rcases List.mem_append.mp hd with hd | hd
    · exact arc_abc.proper d hd
    · exact arc_ca.proper d hd
  · rw [edges, List.pairwise_append]
    refine ⟨arc_abc.pairwise.imp LeadsInto.meets,
      arc_ca.pairwise.imp LeadsInto.meets, ?_⟩
    intro d hd d' hd' p hp hp'
    rcases List.mem_append.mp hd with hd | hd
    · have hstart : p = a.toComplex := eq_gate_of_mem
        (Growth.within_gated_start h hab hsum d hd hp)
        (Growth.within_gated_stop h hca hsum'' d' hd' hp')
      rw [hstart] at hp hp' ⊢
      exact Or.inr ⟨arc_ab.start_eq d hd hp, arc_ca.stop_eq d' hd' hp'⟩
    · have hstop : p = c.toComplex := eq_gate_of_mem
        (Growth.within_gated_stop h hbc hsum' d hd hp)
        (Growth.within_gated_start h hca hsum'' d' hd' hp')
      rw [hstop] at hp hp' ⊢
      exact Or.inl ⟨arc_bc.stop_eq d hd hp, arc_ca.start_eq d' hd' hp'⟩

/-- Every realization is a simple polygon. -/
theorem simplePolygon :
    SimplePolygon
      ((r.edges (Snowflake.cut e f) cornerA cornerB cornerC).map Edge.start) := by
  have hab := isSide_of_mem_sides (a := cornerA) (b := cornerB) (by simp [sides])
  have hbc := isSide_of_mem_sides (a := cornerB) (b := cornerC) (by simp [sides])
  have hca := isSide_of_mem_sides (a := cornerC) (b := cornerA) (by simp [sides])
  exact (r.circuit_edges h hab hbc hca corners_sum).simplePolygon
    (r.path_edges _ _ _ _) (r.three_le_length_edges _ _ _ _)

end Realization

namespace Settings

open Plane Snowflake

/-- The vertices of every realization are those of a simple polygon, for every
edge fraction from a quarter to below a half and whatever the levels are at
which neighbouring edges are kept. -/
theorem boundary_is_simple (s : Settings ℝ) (hquarter : 1 / 4 ≤ s.edgeFraction)
    (hhalf : s.edgeFraction < 1 / 2) {σ : Type} [WordSource σ] :
    s.offsetFraction = √(s.edgeFraction - 1 / 4) ∧
    (forall (source after : σ) (vertices : Array (Vec2 ℝ)),
      s.vertices.run.run source = (.ok vertices, after) ->
        s.Realizes vertices.toList) ∧
    (forall vertices, s.Realizes vertices -> SimplePolygon vertices) := by
  refine ⟨s.offsetFraction_eq, ?_, ?_⟩
  · intro source after vertices hrun
    exact realizes_of_vertices hrun
  · rintro vertices ⟨levels, _, r, rfl⟩
    exact r.simplePolygon (proportions hquarter hhalf)

/-- Standard snowflakes whose sides may stay whole or have edges down to the third
level. -/
theorem boundary_is_simple_down_to_third_level :
    let s : Settings ℝ :=
      { maxLevel := 3, minLevel := 0, dimension := snowflakeDimension }
    1 / 4 ≤ s.edgeFraction ∧ s.edgeFraction < 1 / 2 ∧
      exists vertices after,
        s.vertices.run.run (Twister.ofSeed Seed.default) = (.ok vertices, after) ∧
          SimplePolygon vertices.toList := by
  intro s
  have hthird : s.edgeFraction = 1 / 3 := edgeFraction_of_snowflakeDimension rfl
  have hquarter : 1 / 4 ≤ s.edgeFraction := by
    rw [hthird]
    norm_num
  have hhalf : s.edgeFraction < 1 / 2 := by
    rw [hthird]
    norm_num
  have hlevels : s.levels? =
      some { least := 0, greatest := 3, least_le := by decide } := rfl
  rcases exists_vertices hlevels (by decide) (Twister.ofSeed Seed.default) with
    ⟨vertices, after, hrun⟩
  rcases @boundary_is_simple s hquarter hhalf Twister _ with ⟨_, hruns, hsimple⟩
  exact ⟨hquarter, hhalf, vertices, after, hrun, hsimple _ (hruns _ _ _ hrun)⟩

end Settings

end SphereFixtures
