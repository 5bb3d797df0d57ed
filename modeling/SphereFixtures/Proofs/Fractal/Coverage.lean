import SphereFixtures.Proofs.Fractal.Realization
import SphereFixtures.Random.Seed

/-!
# Edges, words and coverage

Both the number of edges and the number of words are left to chance, but one
follows from the other.  An edge of a level takes up the same part of its side
on every realization, and together the kept edges take up the whole of it.
-/

namespace SphereFixtures

namespace Edge

/-- What edges take up of a side, in parts of the greatest level. -/
def coverage {P : Type} (greatest : Nat) (edges : List (Edge P)) : Nat :=
  (edges.map fun e => 4 ^ (greatest - e.level)).sum

theorem coverage_append {P : Type} (greatest : Nat) (edges others : List (Edge P)) :
    coverage greatest (edges ++ others) =
      coverage greatest edges + coverage greatest others := by
  rw [coverage, List.map_append, List.sum_append]
  rfl

end Edge

namespace Growth

open Edge

variable {P : Type} (cut : Cut P) {levels : Levels} {growth : Growth}

/-- A replaced edge is one decision more and three edges more.  Only those above
the least level, which the even growth of that level replaces, are not drawn. -/
theorem draws_of_fits {level : Nat} (h : growth.Fits levels level) (a b : P) :
    3 * growth.draws levels.least level + 4 ^ (levels.least - level) =
      4 * (growth.edges cut a b level).length := by
  induction growth generalizing level a b with
  | kept =>
      rw [draws, if_pos h.left, Nat.sub_eq_zero_of_le h.left]
      rfl
  | replaced first second third fourth ih₁ ih₂ ih₃ ih₄ =>
      rcases h with ⟨_, h₁, h₂, h₃, h₄⟩
      have e₁ := ih₁ h₁ a (cut a b).1
      have e₂ := ih₂ h₂ (cut a b).1 (cut a b).2.1
      have e₃ := ih₃ h₃ (cut a b).2.1 (cut a b).2.2
      have e₄ := ih₄ h₄ (cut a b).2.2 b
      simp only [draws, edges_replaced, List.length_append]
      by_cases hlevel : levels.least ≤ level
      · rw [Nat.sub_eq_zero_of_le (by omega)] at e₁ e₂ e₃ e₄ ⊢
        rw [if_pos hlevel]
        omega
      · have hdepth : levels.least - level = levels.least - (level + 1) + 1 := by
          omega
        rw [if_neg hlevel, hdepth, Nat.pow_succ]
        omega

theorem level_of_mem_edges {level : Nat} (h : growth.Fits levels level) {a b : P}
    {e : Edge P} (he : e ∈ growth.edges cut a b level) :
    levels.least ≤ e.level ∧ e.level ≤ levels.greatest := by
  induction growth generalizing level a b with
  | kept =>
      rw [List.mem_singleton.mp he]
      exact h
  | replaced first second third fourth ih₁ ih₂ ih₃ ih₄ =>
      rcases h with ⟨_, h₁, h₂, h₃, h₄⟩
      simp only [edges_replaced, List.mem_append] at he
      rcases he with ((he | he) | he) | he
      · exact ih₁ h₁ he
      · exact ih₂ h₂ he
      · exact ih₃ h₃ he
      · exact ih₄ h₄ he

/-- The edges that replace an edge take up as much as the edge did. -/
theorem coverage_edges {level : Nat} (h : growth.Fits levels level) (a b : P) :
    coverage levels.greatest (growth.edges cut a b level) =
      4 ^ (levels.greatest - level) := by
  induction growth generalizing level a b with
  | kept => simp [coverage, edges]
  | replaced first second third fourth ih₁ ih₂ ih₃ ih₄ =>
      rcases h with ⟨hlevel, h₁, h₂, h₃, h₄⟩
      have hdepth :
          levels.greatest - level = levels.greatest - (level + 1) + 1 := by
        omega
      simp only [edges_replaced, coverage_append, ih₁ h₁, ih₂ h₂, ih₃ h₃, ih₄ h₄]
      rw [hdepth, Nat.pow_succ]
      omega

end Growth

namespace Realization

variable {P : Type} (cut : Cut P) (a b c : P) {levels : Levels}

theorem draws_eq (r : Realization levels) :
    3 * r.draws + 3 * 4 ^ levels.least = 4 * (r.edges cut a b c).length := by
  have hab := Growth.draws_of_fits cut r.ab_fits a b
  have hbc := Growth.draws_of_fits cut r.bc_fits b c
  have hca := Growth.draws_of_fits cut r.ca_fits c a
  rw [Nat.sub_zero] at hab hbc hca
  simp only [draws, edges, List.length_append]
  omega

theorem level_of_mem_edges (r : Realization levels) {e : Edge P}
    (he : e ∈ r.edges cut a b c) :
    levels.least ≤ e.level ∧ e.level ≤ levels.greatest := by
  simp only [edges, List.mem_append] at he
  rcases he with (he | he) | he
  · exact Growth.level_of_mem_edges cut r.ab_fits he
  · exact Growth.level_of_mem_edges cut r.bc_fits he
  · exact Growth.level_of_mem_edges cut r.ca_fits he

end Realization

namespace Settings

open Edge Snowflake WordSource

variable {α σ : Type} [Scalar α] [WordSource σ]

/-- The number of vertices is a multiple of three, and the words that a run has
taken are twice as many as the decisions for that number.  All edges are within
the levels; those of a side lead from its start to its end and take up as much
as its edges of the greatest level would. -/
theorem boundary_accounting (s : Settings α) {m M : Nat}
    (hleast : s.leastLevel = m) (hgreatest : s.maxLevel = M) {source after : σ}
    {vertices : Array (Vec2 α)}
    (h : s.vertices.run.run source = (.ok vertices, after)) :
    3 ∣ vertices.size ∧ 4 ^ m ≤ 4 * vertices.size / 3 ∧
      after = skip (2 * (4 * vertices.size / 3 - 4 ^ m)) source ∧
      exists ab bc ca : List (Edge (Vec2 α)),
        s.boundary.run.run source = (.ok (ab ++ bc ++ ca).toArray, after) ∧
        vertices.toList = (ab ++ bc ++ ca).map Edge.start ∧
        (forall e, e ∈ ab ++ bc ++ ca -> m ≤ e.level ∧ e.level ≤ M) ∧
        ((ab ++ bc ++ ca).map fun e => 4 ^ (M - e.level)).sum = 3 * 4 ^ M ∧
        (Path ab cornerA cornerB ∧ coverage M ab = 4 ^ M) ∧
        (Path bc cornerB cornerC ∧ coverage M bc = 4 ^ M) ∧
        (Path ca cornerC cornerA ∧ coverage M ca = 4 ^ M) := by
  rcases exists_boundary_of_vertices h with ⟨edges, hedges, rfl⟩
  rcases exists_realization_of_boundary hedges with
    ⟨levels, hlevels, r, hr, hafter⟩
  rcases eq_of_levels?_eq_some hlevels hleast hgreatest with ⟨rfl, rfl⟩
  have hdraws := r.draws_eq s.cut cornerA cornerB cornerC
  have hsize : (edges.map Edge.start).size =
      (r.edges s.cut cornerA cornerB cornerC).length := by
    rw [Array.size_map, ← hr, Array.length_toList]
  have hcover {growth : Growth} (hfits : growth.Fits levels 0) (p q : Vec2 α) :
      coverage levels.greatest (growth.edges s.cut p q 0) =
        4 ^ levels.greatest :=
    Growth.coverage_edges s.cut hfits p q
  refine ⟨by omega, by omega, ?_, r.ab.edges s.cut cornerA cornerB 0,
    r.bc.edges s.cut cornerB cornerC 0, r.ca.edges s.cut cornerC cornerA 0,
    ?_, ?_, ?_, ?_, ?_, ?_, ?_⟩
  · have hcount :
        r.draws = 4 * (edges.map Edge.start).size / 3 - 4 ^ levels.least := by
      omega
    rw [← hcount]
    exact hafter
  · have harray : edges = (r.edges s.cut cornerA cornerB cornerC).toArray := by
      rw [← hr]
    rw [harray] at hedges
    exact hedges
  · rw [Array.toList_map, hr]
    rfl
  · intro e he
    exact r.level_of_mem_edges s.cut cornerA cornerB cornerC he
  · show coverage levels.greatest _ = _
    rw [coverage_append, coverage_append, hcover r.ab_fits, hcover r.bc_fits,
      hcover r.ca_fits]
    omega
  · exact ⟨r.ab.path_edges s.cut _ _ 0, hcover r.ab_fits _ _⟩
  · exact ⟨r.bc.path_edges s.cut _ _ 0, hcover r.bc_fits _ _⟩
  · exact ⟨r.ca.path_edges s.cut _ _ 0, hcover r.ca_fits _ _⟩

/-- Each decision about an edge of the first level and above takes two words. -/
theorem boundary_accounting_from_first_to_third_level :
    let s : Settings Float := { maxLevel := 3, minLevel := 1, dimension := 1.5 }
    let source := Twister.ofSeed Seed.default
    s.leastLevel = (1 : Nat) ∧ s.maxLevel = (3 : Nat) ∧
      exists vertices after,
        s.vertices.run.run source = (.ok vertices, after) ∧
        3 ∣ vertices.size ∧
        after = skip (2 * (4 * vertices.size / 3 - 4)) source ∧
        exists ab bc ca : List (Edge (Vec2 Float)),
          vertices.toList = (ab ++ bc ++ ca).map Edge.start ∧
          (forall e, e ∈ ab ++ bc ++ ca -> 1 ≤ e.level ∧ e.level ≤ 3) ∧
          ((ab ++ bc ++ ca).map fun e => 4 ^ (3 - e.level)).sum = 192 ∧
          Path ab cornerA cornerB ∧ coverage 3 ab = 64 := by
  intro s source
  have hleast : s.leastLevel = (1 : Nat) := by decide
  have hgreatest : s.maxLevel = (3 : Nat) := by decide
  have hlevels : s.levels? =
      some { least := 1, greatest := 3, least_le := by decide } := by decide
  rcases exists_vertices hlevels (by decide) source with ⟨vertices, after, h⟩
  rcases boundary_accounting s hleast hgreatest h with
    ⟨hthird, _, hafter, ab, bc, ca, _, hstarts, hlevel, hsum, hab, _⟩
  exact ⟨hleast, hgreatest, vertices, after, h, hthird, hafter, ab, bc, ca,
    hstarts, hlevel, hsum, hab⟩

end Settings

end SphereFixtures
