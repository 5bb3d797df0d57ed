import SphereFixtures.Proofs.Fractal.Realization
import SphereFixtures.Random.Seed

/-!
# Between two even growths

An even growth replaces every edge down to one level.  Replacing a kept edge
only puts new vertices between those that are there, so each realization lies
between the even ones of its least and its greatest level.
-/

namespace SphereFixtures

namespace Growth

/-!
## Growing further
-/

/-- Whether a growth becomes another one when kept edges are replaced. -/
inductive GrowsInto : Growth -> Growth -> Prop where
  | kept (growth : Growth) : GrowsInto .kept growth
  | replaced {first second third fourth first' second' third' fourth' : Growth}
      (hfirst : GrowsInto first first') (hsecond : GrowsInto second second')
      (hthird : GrowsInto third third') (hfourth : GrowsInto fourth fourth') :
      GrowsInto (.replaced first second third fourth)
        (.replaced first' second' third' fourth')

theorem growsInto_antisymm {g h : Growth} (hgh : GrowsInto g h)
    (hhg : GrowsInto h g) : g = h := by
  induction hgh with
  | kept growth =>
      cases hhg
      rfl
  | replaced _ _ _ _ ih₁ ih₂ ih₃ ih₄ =>
      cases hhg with
      | replaced h₁ h₂ h₃ h₄ => rw [ih₁ h₁, ih₂ h₂, ih₃ h₃, ih₄ h₄]

variable {P : Type}

/-- A growth that goes further has all vertices of the one it comes from, in
their order. -/
theorem map_start_sublist_of_growsInto {g h : Growth} (hgh : GrowsInto g h)
    (cut : Cut P) (a b : P) (level : Nat) :
    ((g.edges cut a b level).map Edge.start).Sublist
      ((h.edges cut a b level).map Edge.start) := by
  induction hgh generalizing a b level with
  | kept growth =>
      rcases exists_map_start_edges cut growth a b level with ⟨rest, hrest⟩
      rw [hrest]
      exact (List.nil_sublist rest).cons_cons a
  | replaced _ _ _ _ ih₁ ih₂ ih₃ ih₄ =>
      simp only [edges_replaced, List.map_append]
      exact (((ih₁ _ _ _).append (ih₂ _ _ _)).append (ih₃ _ _ _)).append
        (ih₄ _ _ _)

/-!
## Even growths
-/

/-- The growth that replaces every edge for a number of levels. -/
def even : Nat -> Growth
  | 0 => .kept
  | depth + 1 => .replaced (even depth) (even depth) (even depth) (even depth)

theorem even_growsInto_of_fits {levels : Levels} {growth : Growth} {level : Nat}
    (h : growth.Fits levels level) :
    GrowsInto (even (levels.least - level)) growth := by
  induction growth generalizing level with
  | kept =>
      rw [Nat.sub_eq_zero_of_le h.left]
      exact .kept _
  | replaced first second third fourth ih₁ ih₂ ih₃ ih₄ =>
      rcases h with ⟨_, h₁, h₂, h₃, h₄⟩
      by_cases hlevel : level < levels.least
      · have hdepth : levels.least - level = levels.least - (level + 1) + 1 := by
          omega
        rw [hdepth]
        exact .replaced (ih₁ h₁) (ih₂ h₂) (ih₃ h₃) (ih₄ h₄)
      · rw [Nat.sub_eq_zero_of_le (Nat.le_of_not_lt hlevel)]
        exact .kept _

theorem growsInto_even_of_fits {levels : Levels} {growth : Growth} {level : Nat}
    (h : growth.Fits levels level) :
    GrowsInto growth (even (levels.greatest - level)) := by
  induction growth generalizing level with
  | kept => exact .kept _
  | replaced first second third fourth ih₁ ih₂ ih₃ ih₄ =>
      rcases h with ⟨hlevel, h₁, h₂, h₃, h₄⟩
      have hdepth :
          levels.greatest - level = levels.greatest - (level + 1) + 1 := by
        omega
      rw [hdepth]
      exact .replaced (ih₁ h₁) (ih₂ h₂) (ih₃ h₃) (ih₄ h₄)

/-- With a single level nothing is left to be decided. -/
theorem eq_even_of_fits {levels : Levels} (hsingle : levels.least = levels.greatest)
    {growth : Growth} {level : Nat} (h : growth.Fits levels level) :
    growth = even (levels.greatest - level) := by
  have heven := even_growsInto_of_fits h
  rw [hsingle] at heven
  exact growsInto_antisymm (growsInto_even_of_fits h) heven

theorem length_edges_even (cut : Cut P) (depth : Nat) (a b : P) (level : Nat) :
    ((even depth).edges cut a b level).length = 4 ^ depth := by
  induction depth generalizing a b level with
  | zero => rfl
  | succ depth ih =>
      simp only [even, edges_replaced, List.length_append, ih]
      omega

/-- One more level replaces every edge of an even growth. -/
theorem edges_even_succ (cut : Cut P) (depth : Nat) (a b : P) (level : Nat) :
    (even (depth + 1)).edges cut a b level =
      ((even depth).edges cut a b level).flatMap (Edge.split cut) := by
  induction depth generalizing a b level with
  | zero => rfl
  | succ depth ih =>
      rw [even, edges_replaced, ih, ih, ih, ih, even, edges_replaced]
      simp only [List.flatMap_append]

end Growth

/-!
## Even boundaries
-/

namespace Subdivision

open Growth

variable {P : Type}

/-- The boundary on which all edges have one level. -/
def evenBoundary (cut : Cut P) (a b c : P) (level : Nat) : List (Edge P) :=
  (even level).edges cut a b 0 ++ (even level).edges cut b c 0 ++
    (even level).edges cut c a 0

variable (cut : Cut P) (a b c : P)

theorem length_evenBoundary (level : Nat) :
    (evenBoundary cut a b c level).length = 3 * 4 ^ level := by
  simp only [evenBoundary, List.length_append, length_edges_even]
  omega

theorem evenBoundary_succ (level : Nat) :
    evenBoundary cut a b c (level + 1) =
      (evenBoundary cut a b c level).flatMap (Edge.split cut) := by
  simp only [evenBoundary, edges_even_succ, List.flatMap_append]

/-- The first part of a replaced edge starts where the edge did, and three
more parts follow it. -/
theorem getElem?_map_start_flatMap_split (edges : List (Edge P)) (i : Nat) :
    ((edges.flatMap (Edge.split cut)).map Edge.start)[4 * i]? =
      (edges.map Edge.start)[i]? := by
  induction edges generalizing i with
  | nil => rfl
  | cons e rest ih =>
      cases i with
      | zero => rfl
      | succ i =>
          have hnext :
              (((e :: rest).flatMap (Edge.split cut)).map Edge.start)[4 * i + 4]? =
                ((rest.flatMap (Edge.split cut)).map Edge.start)[4 * i]? := rfl
          rw [Nat.mul_succ, hnext, ih]
          rfl

/-- The corners are the first vertices of the three sides. -/
theorem getElem?_corners_evenBoundary (level : Nat) :
    let starts := (evenBoundary cut a b c level).map Edge.start
    starts[0]? = some a ∧ starts[4 ^ level]? = some b ∧
      starts[2 * 4 ^ level]? = some c := by
  intro starts
  have hlength (p q : P) :
      (((even level).edges cut p q 0).map Edge.start).length = 4 ^ level := by
    rw [List.length_map, length_edges_even]
  rcases exists_map_start_edges cut (even level) a b 0 with ⟨_, ha⟩
  rcases exists_map_start_edges cut (even level) b c 0 with ⟨_, hb⟩
  rcases exists_map_start_edges cut (even level) c a 0 with ⟨_, hc⟩
  simp only [starts, evenBoundary, List.map_append]
  refine ⟨?_, ?_, ?_⟩
  · rw [ha]
    rfl
  · rw [List.append_assoc, List.getElem?_append_right (Nat.le_of_eq (hlength a b)),
      hlength, Nat.sub_self, hb]
    rfl
  · have htwo : ((((even level).edges cut a b 0).map Edge.start) ++
        (((even level).edges cut b c 0).map Edge.start)).length =
          2 * 4 ^ level := by
      rw [List.length_append, hlength, hlength]
      omega
    rw [List.getElem?_append_right (Nat.le_of_eq htwo), htwo, Nat.sub_self, hc]
    rfl

end Subdivision

namespace Realization

open Growth Subdivision

variable {P : Type} {levels : Levels} (cut : Cut P) (a b c : P)

theorem evenBoundary_sublist (r : Realization levels) :
    ((evenBoundary cut a b c levels.least).map Edge.start).Sublist
      ((r.edges cut a b c).map Edge.start) := by
  simp only [evenBoundary, edges, List.map_append]
  have hside {growth : Growth} (h : growth.Fits levels 0) (p q : P) :=
    map_start_sublist_of_growsInto (even_growsInto_of_fits h) cut p q 0
  exact ((hside r.ab_fits a b).append (hside r.bc_fits b c)).append
    (hside r.ca_fits c a)

theorem sublist_evenBoundary (r : Realization levels) :
    ((r.edges cut a b c).map Edge.start).Sublist
      ((evenBoundary cut a b c levels.greatest).map Edge.start) := by
  simp only [evenBoundary, edges, List.map_append]
  have hside {growth : Growth} (h : growth.Fits levels 0) (p q : P) :=
    map_start_sublist_of_growsInto (growsInto_even_of_fits h) cut p q 0
  exact ((hside r.ab_fits a b).append (hside r.bc_fits b c)).append
    (hside r.ca_fits c a)

theorem edges_eq_evenBoundary (hsingle : levels.least = levels.greatest)
    (r : Realization levels) :
    r.edges cut a b c = evenBoundary cut a b c levels.greatest := by
  rw [edges, eq_even_of_fits hsingle r.ab_fits, eq_even_of_fits hsingle r.bc_fits,
    eq_even_of_fits hsingle r.ca_fits]
  rfl

end Realization

/-!
## Runs
-/

namespace Settings

open Snowflake Subdivision

variable {α σ : Type} [Scalar α] [WordSource σ]

/-- With a single level every source yields the even boundary. -/
theorem exists_vertices_of_single {s : Settings α} {levels : Levels}
    (hlevels : s.levels? = some levels)
    (hsingle : levels.least = levels.greatest) (source : σ) :
    exists after, s.vertices source =
      (.ok ((evenBoundary s.cut cornerA cornerB cornerC levels.greatest).map
        Edge.start).toArray, after) := by
  have hroom :
      (levels.greatest : Int) - levels.least + 1 ≤ DrawError.maxBound := by
    rw [hsingle, Int.sub_self]
    decide
  rcases exists_vertices hlevels hroom source with ⟨vertices, after, h⟩
  rcases realizes_of_vertices h with ⟨_, hsome, r, hr⟩
  rw [hlevels] at hsome
  cases hsome
  rw [r.edges_eq_evenBoundary _ _ _ _ hsingle] at hr
  refine ⟨after, ?_⟩
  rw [h, ← hr]

/-- A realization has the vertices of the boundary of its least level among its
own, and its own are among those of its greatest level.  The sequence of a
level has its corners at the thirds and each fourth vertex in common with the
sequence before it; a single level leaves nothing to the source. -/
theorem vertices_between_levels (s : Settings α) {m M : Nat}
    (hleast : s.leastLevel = m) (hgreatest : s.maxLevel = M) {source after : σ}
    {vertices : Array (Vec2 α)}
    (h : s.vertices.run.run source = (.ok vertices, after)) :
    exists sequence : Nat -> List (Vec2 α),
      (forall (level : Nat) {τ : Type} [WordSource τ] (t : τ), exists u,
        ({ s with maxLevel := level, minLevel := level } :
            Settings α).vertices.run.run t =
          (.ok (sequence level).toArray, u)) ∧
      (sequence m).Sublist vertices.toList ∧
      vertices.toList.Sublist (sequence M) ∧
      3 * 4 ^ m ≤ vertices.size ∧ vertices.size ≤ 3 * 4 ^ M ∧
      (forall level, (sequence level).length = 3 * 4 ^ level ∧
        (forall i : Nat,
          (sequence (level + 1))[4 * i]? = (sequence level)[i]?) ∧
        (sequence level)[0]? = some cornerA ∧
        (sequence level)[4 ^ level]? = some cornerB ∧
        (sequence level)[2 * 4 ^ level]? = some cornerC) ∧
      (m = M -> forall {τ : Type} [WordSource τ] (t : τ), exists u,
        s.vertices.run.run t = (.ok (sequence M).toArray, u)) := by
  rcases realizes_of_vertices h with ⟨levels, hlevels, r, hr⟩
  rcases eq_of_levels?_eq_some hlevels hleast hgreatest with ⟨rfl, rfl⟩
  have hlower := r.evenBoundary_sublist s.cut cornerA cornerB cornerC
  have hupper := r.sublist_evenBoundary s.cut cornerA cornerB cornerC
  rw [← hr] at hlower hupper
  refine ⟨fun level =>
    (evenBoundary s.cut cornerA cornerB cornerC level).map Edge.start,
    ?_, ?_, ?_, ?_, ?_, ?_, ?_⟩
  · intro level τ _ t
    have hsingle :
        ({ s with maxLevel := level, minLevel := level } : Settings α).levels? =
          some (Levels.single level) := by
      simp [levels?, leastLevel, Levels.single]
    exact exists_vertices_of_single hsingle rfl t
  · exact hlower
  · exact hupper
  · simpa [length_evenBoundary] using hlower.length_le
  · simpa [length_evenBoundary] using hupper.length_le
  · intro level
    refine ⟨?_, ?_, getElem?_corners_evenBoundary s.cut _ _ _ level⟩
    · rw [List.length_map, length_evenBoundary]
    · intro i
      simp only
      rw [evenBoundary_succ, getElem?_map_start_flatMap_split]
  · intro hsingle τ _ t
    exact exists_vertices_of_single hlevels hsingle t

/-- Edges that may stay from the first level on, up to the third one. -/
theorem vertices_between_first_and_third_level :
    let s : Settings Float := { maxLevel := 3, minLevel := 1, dimension := 1.5 }
    let source := Twister.ofSeed Seed.default
    s.leastLevel = (1 : Nat) ∧ s.maxLevel = (3 : Nat) ∧
      exists vertices after,
        s.vertices.run.run source = (.ok vertices, after) ∧
        12 ≤ vertices.size ∧ vertices.size ≤ 192 ∧
        exists sequence : Nat -> List (Vec2 Float),
          (sequence 1).Sublist vertices.toList ∧
          vertices.toList.Sublist (sequence 3) ∧
          (forall i : Nat, (sequence 3)[4 * i]? = (sequence 2)[i]?) ∧
          (sequence 3)[64]? = some cornerB ∧
          (sequence 3)[128]? = some cornerC := by
  intro s source
  have hleast : s.leastLevel = (1 : Nat) := by decide
  have hgreatest : s.maxLevel = (3 : Nat) := by decide
  have hlevels : s.levels? =
      some { least := 1, greatest := 3, least_le := by decide } := by decide
  rcases exists_vertices hlevels (by decide) source with ⟨vertices, after, h⟩
  rcases vertices_between_levels s hleast hgreatest h with
    ⟨sequence, _, hlower, hupper, hleast_size, hgreatest_size, hsequence, _⟩
  rcases hsequence 2 with ⟨_, hfourth, _⟩
  rcases hsequence 3 with ⟨_, _, _, hcornerB, hcornerC⟩
  exact ⟨hleast, hgreatest, vertices, after, h, hleast_size, hgreatest_size,
    sequence, hlower, hupper, hfourth, hcornerB, hcornerC⟩

end Settings

end SphereFixtures
