import SphereFixtures.Proofs.Fractal.EdgeLengths
import SphereFixtures.Proofs.Fractal.EvenGrowth

/-!
# Winding and area

Twice the signed area of a closed polygon is a sum over its edges.  When an edge
is replaced only its own term changes, by the area between the edge and its parts,
so the area of a boundary is that of the triangle and of all these additions.
-/

namespace SphereFixtures

/-- Twice the signed area of the triangle of the center and two points. -/
def Vec2.cross (v w : Vec2 ℝ) : ℝ :=
  v.x * w.y - w.x * v.y

/-- Twice the signed area of a closed polygon. -/
def shoelace (vertices : List (Vec2 ℝ)) : ℝ :=
  ((closedEdges vertices).map fun edge => edge.1.cross edge.2).sum

namespace Edge

/-- Twice the signed area that is passed over along edges, as seen from the
center. -/
def swept (edges : List (Edge (Vec2 ℝ))) : ℝ :=
  (edges.map fun d => d.start.cross d.stop).sum

theorem swept_append (edges others : List (Edge (Vec2 ℝ))) :
    swept (edges ++ others) = swept edges + swept others := by
  rw [swept, List.map_append, List.sum_append]
  rfl

theorem shoelace_map_start {edges : List (Edge (Vec2 ℝ))} {a : Vec2 ℝ}
    (h : Path edges a a) : shoelace (edges.map Edge.start) = swept edges := by
  rw [shoelace, closedEdges_map_start h, List.map_map]
  rfl

end Edge

/-!
## Replaced edges
-/

namespace Growth

variable {P : Type} (cut : Cut P)

/-- The edges that are replaced, each before those among its parts. -/
def replacedEdges : Growth -> P -> P -> Nat -> List (Edge P)
  | .kept, _, _, _ => []
  | .replaced first second third fourth, a, b, level =>
      let (p, q, r) := cut a b
      { start := a, stop := b, level := level } ::
        (first.replacedEdges a p (level + 1) ++
          second.replacedEdges p q (level + 1) ++
          third.replacedEdges q r (level + 1) ++
          fourth.replacedEdges r b (level + 1))

variable {cut}

/-- What an edge hands on to its parts holds of all the edges that are replaced. -/
theorem of_mem_replacedEdges {I : Edge P -> Prop}
    (hparts : forall e d, I e -> d ∈ e.split cut -> I d) {growth : Growth} {a b : P}
    {level : Nat} (h : I { start := a, stop := b, level := level }) {d : Edge P}
    (hd : d ∈ growth.replacedEdges cut a b level) : I d := by
  induction growth generalizing a b level with
  | kept => cases hd
  | replaced first second third fourth ih₁ ih₂ ih₃ ih₄ =>
      simp only [replacedEdges, List.mem_cons, List.mem_append] at hd
      rcases hd with rfl | ((hd | hd) | hd) | hd
      · exact h
      · exact ih₁ (hparts _ _ h (by simp [Edge.split])) hd
      · exact ih₂ (hparts _ _ h (by simp [Edge.split])) hd
      · exact ih₃ (hparts _ _ h (by simp [Edge.split])) hd
      · exact ih₄ (hparts _ _ h (by simp [Edge.split])) hd

end Growth

/-!
## The area between an edge and its parts
-/

namespace Plane

open Edge

variable (e f : ℝ) (a b : Vec2 ℝ)

theorem cross_eq (v w : Vec2 ℝ) :
    v.cross w =
      v.toComplex.re * w.toComplex.im - w.toComplex.re * v.toComplex.im := rfl

/-- The parts of an edge pass over more than the edge does, by a trapezoid of which
one side is the gap between the inner points. -/
theorem cross_cut :
    let inner := Snowflake.cut e f a b
    a.cross inner.1 + inner.1.cross inner.2.1 + inner.2.1.cross inner.2.2 +
        inner.2.2.cross b =
      a.cross b + (1 - 2 * e) * f * ‖b.toComplex - a.toComplex‖ ^ 2 := by
  intro inner
  simp only [cross_eq, inner, toComplex_cut_near, toComplex_cut_apex,
    toComplex_cut_far, Complex.sq_norm, Complex.normSq_apply, along, apex]
  simp
  ring

theorem shoelace_triangle (a b c : Vec2 ℝ) :
    shoelace [a, b, c] = a.cross b + b.cross c + c.cross a := by
  simp [shoelace, closedEdges, add_assoc]

theorem cross_comm (v w : Vec2 ℝ) : v.cross w = -w.cross v := by
  rw [cross_eq, cross_eq]
  ring

/-- The trapezoid is the polygon of the parts, closed by the edge. -/
theorem shoelace_cut :
    let inner := Snowflake.cut e f a b
    shoelace [a, inner.1, inner.2.1, inner.2.2, b] =
      (1 - 2 * e) * f * ‖b.toComplex - a.toComplex‖ ^ 2 := by
  intro inner
  have hparts := cross_cut e f a b
  have hback := cross_comm b a
  simp only [shoelace, closedEdges, List.rotate_cons_succ, List.rotate_zero,
    List.cons_append, List.nil_append, List.zip_cons_cons, List.zip_nil_right,
    List.map_cons, List.map_nil, List.sum_cons, List.sum_nil]
  linarith

/-- The middle vertex lies to the right of the edge, by its offset. -/
theorem shoelace_apex :
    shoelace [a, b, (Snowflake.cut e f a b).2.1] =
      -(f * ‖b.toComplex - a.toComplex‖ ^ 2) := by
  rw [shoelace_triangle]
  simp only [cross_eq, toComplex_cut_apex, Complex.sq_norm, Complex.normSq_apply,
    apex]
  simp
  ring

theorem shoelace_corners :
    shoelace [Snowflake.cornerA, Snowflake.cornerB, Snowflake.cornerC] =
      3 * √3 / 2 := by
  rw [shoelace_triangle]
  simp only [cross_eq, toComplex_cornerA, toComplex_cornerB, toComplex_cornerC]
  simp [third]
  linear_combination (√3 / 8) * sq_sqrt_three

end Plane

namespace Edge

open Plane

/-- The areas at an edge with the length of its level. -/
theorem HasLevelLength.shoelace_parts {e : ℝ} {d : Edge (Vec2 ℝ)}
    (h : HasLevelLength e d) (f : ℝ) :
    let inner := Snowflake.cut e f d.start d.stop
    shoelace [d.start, inner.1, inner.2.1, inner.2.2, d.stop] =
        (1 - 2 * e) * f * 3 * e ^ (2 * d.level) ∧
      shoelace [d.start, d.stop, inner.2.1] = -(f * 3 * e ^ (2 * d.level)) := by
  have hlength : ‖d.stop.toComplex - d.start.toComplex‖ ^ 2 =
      3 * e ^ (2 * d.level) := h.length_sq
  have hparts := shoelace_cut e f d.start d.stop
  have hmiddle := shoelace_apex e f d.start d.stop
  rw [hlength, ← mul_assoc] at hparts hmiddle
  exact ⟨hparts, hmiddle⟩

end Edge

namespace Growth

open Plane Edge

/-- What an edge grows into passes over as much as the edge does, and over a
trapezoid more for each edge that is replaced. -/
theorem swept_edges (e f : ℝ) (growth : Growth) (a b : Vec2 ℝ) (level : Nat) :
    swept (growth.edges (Snowflake.cut e f) a b level) =
      a.cross b + ((growth.replacedEdges (Snowflake.cut e f) a b level).map fun d =>
        (1 - 2 * e) * f * d.length ^ 2).sum := by
  induction growth generalizing a b level with
  | kept => simp [swept, edges, replacedEdges]
  | replaced first second third fourth ih₁ ih₂ ih₃ ih₄ =>
      have hparts := cross_cut e f a b
      simp only [edges_replaced, replacedEdges, swept_append, ih₁, ih₂, ih₃, ih₄,
        List.map_cons, List.map_append, List.sum_cons, List.sum_append]
      rw [length]
      simp only at hparts ⊢
      linarith

end Growth

namespace Realization

open Plane Edge Snowflake Growth

variable {levels : Levels}

def replacedEdges {P : Type} (cut : Cut P) (a b c : P) (r : Realization levels) :
    List (Edge P) :=
  r.ab.replacedEdges cut a b 0 ++ r.bc.replacedEdges cut b c 0 ++
    r.ca.replacedEdges cut c a 0

variable (r : Realization levels) {e f : ℝ}

theorem hasLevelLength_of_mem_replacedEdges (hf : f ^ 2 = e - 1 / 4)
    {d : Edge (Vec2 ℝ)}
    (hd : d ∈ r.replacedEdges (Snowflake.cut e f) cornerA cornerB cornerC) :
    HasLevelLength e d := by
  have hside {growth : Growth} {a b : Vec2 ℝ} (hmem : (a, b) ∈ sides)
      (hd : d ∈ growth.replacedEdges (Snowflake.cut e f) a b 0) :
      HasLevelLength e d :=
    of_mem_replacedEdges (fun _ _ h hpart => h.split hf hpart)
      (hasLevelLength_of_mem_sides e hmem) hd
  simp only [replacedEdges, List.mem_append] at hd
  rcases hd with (hd | hd) | hd
  · exact hside (by simp [sides]) hd
  · exact hside (by simp [sides]) hd
  · exact hside (by simp [sides]) hd

theorem shoelace_eq (hf : f ^ 2 = e - 1 / 4) :
    shoelace ((r.edges (Snowflake.cut e f) cornerA cornerB cornerC).map Edge.start) =
      3 * √3 / 2 +
        ((r.replacedEdges (Snowflake.cut e f) cornerA cornerB cornerC).map fun d =>
          (1 - 2 * e) * f * (3 * e ^ (2 * d.level))).sum := by
  have hlength : (r.replacedEdges (Snowflake.cut e f) cornerA cornerB cornerC).map
        (fun d => (1 - 2 * e) * f * (3 * e ^ (2 * d.level))) =
      (r.replacedEdges (Snowflake.cut e f) cornerA cornerB cornerC).map
        fun d => (1 - 2 * e) * f * d.length ^ 2 := by
    apply List.map_congr_left
    intro d hd
    rw [(r.hasLevelLength_of_mem_replacedEdges hf hd).length_sq]
  have hcorners := shoelace_corners
  rw [shoelace_triangle] at hcorners
  rw [shoelace_map_start (r.path_edges _ _ _ _), hlength, ← hcorners]
  simp only [edges, replacedEdges, swept_append, swept_edges, List.map_append,
    List.sum_append]
  ring

end Realization

namespace Settings

open Plane Snowflake

/-- Twice the area of a boundary is that of the triangle and a trapezoid for each
replaced edge, whatever the levels are at which the edges are kept.  So every
boundary is counter-clockwise and has at least the area of the triangle, and no
edge is replaced by one that bends inwards. -/
theorem area_of_boundary (s : Settings ℝ) (hquarter : 1 / 4 ≤ s.edgeFraction)
    (hhalf : s.edgeFraction < 1 / 2) {σ : Type} [WordSource σ] :
    let e := s.edgeFraction
    let f := s.offsetFraction
    f = √(e - 1 / 4) ∧
    (forall (source after : σ) (vertices : Array (Vec2 ℝ)),
      s.vertices.run.run source = (.ok vertices, after) ->
        exists levels, s.levels? = some levels ∧
          exists r : Realization levels, vertices.toList =
            (r.edges s.cut cornerA cornerB cornerC).map Edge.start) ∧
    (forall (levels : Levels) (r : Realization levels),
      let vertices := (r.edges s.cut cornerA cornerB cornerC).map Edge.start
      let replaced := r.replacedEdges s.cut cornerA cornerB cornerC
      shoelace vertices =
          3 * √3 / 2 +
            (replaced.map fun d => (1 - 2 * e) * f * 3 * e ^ (2 * d.level)).sum ∧
        0 < shoelace vertices ∧
        shoelace [cornerA, cornerB, cornerC] = 3 * √3 / 2 ∧
        shoelace [cornerA, cornerB, cornerC] ≤ shoelace vertices ∧
        forall d, d ∈ replaced ->
          let inner := s.cut d.start d.stop
          let parts := [d.start, inner.1, inner.2.1, inner.2.2, d.stop]
          shoelace parts = (1 - 2 * e) * f * 3 * e ^ (2 * d.level) ∧
            0 ≤ shoelace parts ∧
            shoelace [d.start, d.stop, inner.2.1] = -(f * 3 * e ^ (2 * d.level)) ∧
            shoelace [d.start, d.stop, inner.2.1] ≤ 0) := by
  intro e f
  have h := proportions hquarter hhalf
  refine ⟨s.offsetFraction_eq, ?_, ?_⟩
  · intro source after vertices hrun
    exact realizes_of_vertices hrun
  · intro levels r vertices replaced
    have hterm (level : Nat) : 0 ≤ (1 - 2 * e) * f * 3 * e ^ (2 * level) := by
      have hgap : 0 ≤ 1 - 2 * e := by linarith [h.lt_half]
      have hoffset : 0 ≤ f := h.offset_nonneg
      positivity
    have hsum : 0 ≤
        (replaced.map fun d => (1 - 2 * e) * f * 3 * e ^ (2 * d.level)).sum := by
      apply List.sum_nonneg
      intro term hmem
      rcases List.mem_map.mp hmem with ⟨d, _, rfl⟩
      exact hterm d.level
    have harea : shoelace vertices = 3 * √3 / 2 +
        (replaced.map fun d => (1 - 2 * e) * f * 3 * e ^ (2 * d.level)).sum := by
      have heq := r.shoelace_eq h.offset_sq
      simp only [← mul_assoc] at heq
      exact heq
    have htriangle : (0 : ℝ) < 3 * √3 / 2 := by positivity
    refine ⟨harea, by linarith, shoelace_corners, ?_, ?_⟩
    · rw [shoelace_corners]
      linarith
    · intro d hd inner parts
      rcases (r.hasLevelLength_of_mem_replacedEdges h.offset_sq hd).shoelace_parts f
        with ⟨hparts, hmiddle⟩
      have hright : 0 ≤ f * 3 * e ^ (2 * d.level) := by
        have hoffset : 0 ≤ f := h.offset_nonneg
        positivity
      exact ⟨hparts, hparts.ge.trans' (hterm d.level), hmiddle,
        hmiddle.le.trans (neg_nonpos.mpr hright)⟩

/-- The standard snowflake of level one has a third more area than its triangle. -/
theorem area_of_standard_star :
    let s : Settings ℝ :=
      { maxLevel := 1, minLevel := -1, dimension := snowflakeDimension }
    1 / 4 ≤ s.edgeFraction ∧ s.edgeFraction < 1 / 2 ∧
      exists vertices after,
        s.vertices.run.run (Twister.ofSeed Seed.default) = (.ok vertices, after) ∧
          shoelace vertices.toList = 4 / 3 * (3 * √3 / 2) := by
  intro s
  have hthird : s.edgeFraction = 1 / 3 := edgeFraction_of_snowflakeDimension rfl
  have hquarter : 1 / 4 ≤ s.edgeFraction := by
    rw [hthird]
    norm_num
  have hhalf : s.edgeFraction < 1 / 2 := by
    rw [hthird]
    norm_num
  have hlevels : s.levels? = some (Levels.single 1) := rfl
  rcases exists_vertices_of_single hlevels rfl (Twister.ofSeed Seed.default) with
    ⟨after, hrun⟩
  rcases @area_of_boundary s hquarter hhalf Twister _ with ⟨hoffset, hruns, harea⟩
  rcases hruns _ _ _ hrun with ⟨levels, hsome, r, hr⟩
  rw [hlevels] at hsome
  cases hsome
  have heven {growth : Growth} (h : growth.Fits (Levels.single 1) 0) :
      growth = .even 1 := Growth.eq_even_of_fits rfl h
  rcases harea _ r with ⟨heq, _⟩
  refine ⟨hquarter, hhalf, _, after, hrun, ?_⟩
  rw [hr, heq, hoffset, hthird, Realization.replacedEdges, heven r.ab_fits,
    heven r.bc_fits, heven r.ca_fits]
  have hroot : √(1 / 3 - 1 / 4) = √3 / 6 := by
    rw [Real.sqrt_eq_iff_mul_self_eq (by norm_num) (by positivity)]
    linear_combination -sq_sqrt_three / 36
  simp only [hroot, Growth.even, Growth.replacedEdges, List.append_nil,
    List.cons_append, List.nil_append, List.map_cons, List.map_nil, List.sum_cons,
    List.sum_nil, Nat.mul_zero, pow_zero]
  ring

end Settings

end SphereFixtures
