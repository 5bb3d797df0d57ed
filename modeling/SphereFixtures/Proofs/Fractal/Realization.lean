import SphereFixtures.Proofs.Fractal.Growth

/-!
# Realizations

A boundary is made of three growths, one for each side of the triangle.  Its
edges lead around the triangle without gaps.
-/

namespace SphereFixtures

/-!
## Paths
-/

namespace Edge

variable {P : Type}

/-- Whether edges lead from one point to another one without gaps. -/
def Path : List (Edge P) -> P -> P -> Prop
  | [], a, b => a = b
  | e :: rest, a, b => e.start = a ∧ Path rest e.stop b

theorem path_append {edges others : List (Edge P)} {a b c : P}
    (hedges : Path edges a b) (hothers : Path others b c) :
    Path (edges ++ others) a c := by
  induction edges generalizing a with
  | nil =>
      cases hedges
      exact hothers
  | cons e rest ih =>
      constructor
      · exact hedges.left
      · exact ih hedges.right

/-- Every edge of a path stops where the next one starts, and the last one at
the end. -/
theorem map_stop_of_path {edges : List (Edge P)} {a b : P}
    (h : Path edges a b) :
    a :: edges.map Edge.stop = edges.map Edge.start ++ [b] := by
  induction edges generalizing a with
  | nil =>
      cases h
      rfl
  | cons e rest ih =>
      cases h.left
      rw [List.map_cons, ih h.right]
      rfl

end Edge

namespace Growth

open Edge

variable {P : Type}

theorem path_edges (cut : Cut P) (growth : Growth) (a b : P) (level : Nat) :
    Path (growth.edges cut a b level) a b := by
  induction growth generalizing a b level with
  | kept => exact ⟨rfl, rfl⟩
  | replaced first second third fourth ih₁ ih₂ ih₃ ih₄ =>
      exact path_append
        (path_append (path_append (ih₁ _ _ _) (ih₂ _ _ _)) (ih₃ _ _ _))
        (ih₄ _ _ _)

end Growth

/-!
## Three sides
-/

/-- The decisions about the sides of a triangle with corners `a`, `b`, `c`. -/
structure Realization (levels : Levels) where
  ab : Growth
  bc : Growth
  ca : Growth
  ab_fits : ab.Fits levels 0
  bc_fits : bc.Fits levels 0
  ca_fits : ca.Fits levels 0

namespace Realization

variable {P : Type} {levels : Levels}

def edges (cut : Cut P) (a b c : P) (r : Realization levels) : List (Edge P) :=
  r.ab.edges cut a b 0 ++ r.bc.edges cut b c 0 ++ r.ca.edges cut c a 0

def draws (r : Realization levels) : Nat :=
  r.ab.draws levels.least 0 + r.bc.draws levels.least 0 +
    r.ca.draws levels.least 0

theorem path_edges (cut : Cut P) (a b c : P) (r : Realization levels) :
    Edge.Path (r.edges cut a b c) a a :=
  Edge.path_append
    (Edge.path_append (r.ab.path_edges cut a b 0) (r.bc.path_edges cut b c 0))
    (r.ca.path_edges cut c a 0)

end Realization

/-!
## Runs
-/

namespace Settings

open Snowflake Subdivision WordSource

variable {α σ : Type}

theorem of_levels?_eq_some {s : Settings α} {levels : Levels}
    (h : s.levels? = some levels) :
    (levels.least : Int) = s.leastLevel ∧
      (levels.greatest : Int) = s.maxLevel := by
  by_cases hmax : 0 ≤ s.maxLevel
  · rcases levels?_eq_some hmax with ⟨_, hlevels, hfacts⟩
    rw [h] at hlevels
    cases hlevels
    exact hfacts
  · rw [levels?, dif_neg hmax] at h
    cases h

theorem eq_of_levels?_eq_some {s : Settings α} {levels : Levels}
    (h : s.levels? = some levels) {m M : Nat} (hleast : s.leastLevel = m)
    (hgreatest : s.maxLevel = M) : levels.least = m ∧ levels.greatest = M := by
  rcases of_levels?_eq_some h with ⟨hm, hM⟩
  constructor
  · exact Int.ofNat.inj (hm.trans hleast)
  · exact Int.ofNat.inj (hM.trans hgreatest)

variable [Scalar α] [WordSource σ] {s : Settings α} {source after : σ}

theorem exists_boundary_of_vertices {vertices : Array (Vec2 α)}
    (h : s.vertices source = (.ok vertices, after)) :
    exists edges, s.boundary source = (.ok edges, after) ∧
      vertices = edges.map Edge.start := by
  rcases Attempt.exists_of_bind_eq_ok h with ⟨edges, t, hedges, hmap⟩
  cases hmap
  exact ⟨edges, hedges, rfl⟩

/-- A boundary that is drawn is a realization, and its decisions have moved the
source along. -/
theorem exists_realization_of_boundary {edges : Array (Edge (Vec2 α))}
    (h : s.boundary source = (.ok edges, after)) :
    exists levels, s.levels? = some levels ∧
      exists r : Realization levels,
        edges.toList = r.edges s.cut cornerA cornerB cornerC ∧
          after = skip (2 * r.draws) source := by
  rw [boundary] at h
  cases hlevels : s.levels? with
  | none =>
      rw [hlevels] at h
      cases h
  | some levels =>
      rw [hlevels] at h
      refine ⟨levels, rfl, ?_⟩
      have hrun : Subdivision.boundary s.cut levels sides source =
          (.ok edges, after) := by
        have hadapt := (Attempt.adapt_apply GrowthError.draw
          (Subdivision.boundary s.cut levels sides) source).symm.trans h
        split at hadapt
        · next hboundary =>
            cases hadapt
            exact hboundary
        · cases hadapt
      rw [sides, boundary_triangle_eq_walks] at hrun
      rcases Attempt.exists_of_bind_eq_ok hrun with ⟨_, _, hab, hrun⟩
      rcases Attempt.exists_of_bind_eq_ok hrun with ⟨_, _, hbc, hrun⟩
      rcases Attempt.exists_of_bind_eq_ok hrun with ⟨_, _, hca, hrun⟩
      cases hrun
      rcases Growth.exists_of_walk (Nat.zero_le _) hab with
        ⟨ab, hfits_ab, rfl, rfl⟩
      rcases Growth.exists_of_walk (Nat.zero_le _) hbc with
        ⟨bc, hfits_bc, rfl, rfl⟩
      rcases Growth.exists_of_walk (Nat.zero_le _) hca with
        ⟨ca, hfits_ca, rfl, rfl⟩
      refine ⟨⟨ab, bc, ca, hfits_ab, hfits_bc, hfits_ca⟩, rfl, ?_⟩
      simp only [skip_skip, Realization.draws, Nat.mul_add]

/-- Whether some decisions within the levels lead to the vertices. -/
def Realizes (s : Settings α) (vertices : List (Vec2 α)) : Prop :=
  exists levels, s.levels? = some levels ∧
    exists r : Realization levels,
      vertices = (r.edges s.cut cornerA cornerB cornerC).map Edge.start

theorem realizes_of_vertices {vertices : Array (Vec2 α)}
    (h : s.vertices source = (.ok vertices, after)) :
    s.Realizes vertices.toList := by
  rcases exists_boundary_of_vertices h with ⟨edges, hedges, rfl⟩
  rcases exists_realization_of_boundary hedges with ⟨levels, hlevels, r, hr, _⟩
  refine ⟨levels, hlevels, r, ?_⟩
  rw [Array.toList_map, hr]

/-- A boundary is drawn from any words as long as the number of levels is one
that can be drawn. -/
theorem exists_boundary {levels : Levels} (hlevels : s.levels? = some levels)
    (hroom : (levels.greatest : Int) - levels.least + 1 ≤ DrawError.maxBound)
    (source : σ) :
    exists edges after, s.boundary source = (.ok edges, after) := by
  have hwalk (a b : Vec2 α) (t : σ) :=
    Growth.exists_walk s.cut hroom a b (Nat.zero_le _) t
  rcases hwalk cornerA cornerB source with ⟨_, t₁, hab⟩
  rcases hwalk cornerB cornerC t₁ with ⟨_, t₂, hbc⟩
  rcases hwalk cornerC cornerA t₂ with ⟨_, t₃, hca⟩
  rw [boundary, hlevels]
  show exists edges after, ((Subdivision.boundary s.cut levels sides).adapt
    GrowthError.draw : Attempt GrowthError σ _) source = (.ok edges, after)
  rw [Attempt.adapt_apply, sides, boundary_triangle_eq_walks]
  simp only [Attempt.bind_apply, hab, hbc, hca]
  exact ⟨_, _, rfl⟩

theorem exists_vertices {levels : Levels} (hlevels : s.levels? = some levels)
    (hroom : (levels.greatest : Int) - levels.least + 1 ≤ DrawError.maxBound)
    (source : σ) :
    exists vertices after, s.vertices source = (.ok vertices, after) := by
  rcases exists_boundary hlevels hroom source with ⟨edges, after, hedges⟩
  refine ⟨edges.map Edge.start, after, ?_⟩
  rw [vertices, Attempt.bind_apply, hedges]
  rfl

end Settings

end SphereFixtures
