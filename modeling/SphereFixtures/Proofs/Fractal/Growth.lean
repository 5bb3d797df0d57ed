import Mathlib
import SphereFixtures.Proofs.Fractal.Recursion
import SphereFixtures.Proofs.Random.Stream

/-!
# Growths

The decisions about an edge and its parts form a tree, and the edges that are
kept are its leaves.  A run on a source is a tree that the levels allow; how far
it moves the source along depends on the tree alone.
-/

namespace SphereFixtures

/-- The decisions about an edge, and about its parts if it is replaced. -/
inductive Growth where
  | kept
  | replaced (first second third fourth : Growth)
deriving DecidableEq, Repr

namespace Growth

variable {P : Type}

/-- The edges that are kept, in the order of the boundary. -/
def edges (cut : Cut P) : Growth -> P -> P -> Nat -> List (Edge P)
  | .kept, a, b, level => [{ start := a, stop := b, level := level }]
  | .replaced first second third fourth, a, b, level =>
      let (p, q, r) := cut a b
      first.edges cut a p (level + 1) ++ second.edges cut p q (level + 1) ++
        third.edges cut q r (level + 1) ++ fourth.edges cut r b (level + 1)

theorem edges_replaced (cut : Cut P) (first second third fourth : Growth)
    (a b : P) (level : Nat) :
    (replaced first second third fourth).edges cut a b level =
      first.edges cut a (cut a b).1 (level + 1) ++
        second.edges cut (cut a b).1 (cut a b).2.1 (level + 1) ++
        third.edges cut (cut a b).2.1 (cut a b).2.2 (level + 1) ++
        fourth.edges cut (cut a b).2.2 b (level + 1) := rfl

/-- The first edge that is kept starts where the whole edge did. -/
theorem exists_map_start_edges (cut : Cut P) (growth : Growth) (a b : P)
    (level : Nat) :
    exists rest, (growth.edges cut a b level).map Edge.start = a :: rest := by
  induction growth generalizing a b level with
  | kept => exact ⟨[], rfl⟩
  | replaced first second third fourth ih₁ =>
      rcases ih₁ a (cut a b).1 (level + 1) with ⟨rest, hrest⟩
      simp only [edges_replaced, List.map_append, hrest, List.cons_append]
      exact ⟨_, rfl⟩

theorem exists_mem_edges_start (cut : Cut P) (growth : Growth) (a b : P)
    (level : Nat) :
    exists d, d ∈ growth.edges cut a b level ∧ d.start = a := by
  rcases exists_map_start_edges cut growth a b level with ⟨rest, hrest⟩
  apply List.mem_map.mp
  rw [hrest]
  exact List.mem_cons_self

theorem length_edges_pos (cut : Cut P) (growth : Growth) (a b : P) (level : Nat) :
    0 < (growth.edges cut a b level).length := by
  rcases exists_mem_edges_start cut growth a b level with ⟨d, hd, _⟩
  exact List.length_pos_of_mem hd

/-- Whether levels leave room for the decisions about an edge of some level. -/
def Fits (levels : Levels) : Growth -> Nat -> Prop
  | .kept, level => levels.least ≤ level ∧ level ≤ levels.greatest
  | .replaced first second third fourth, level =>
      level < levels.greatest ∧
        first.Fits levels (level + 1) ∧ second.Fits levels (level + 1) ∧
        third.Fits levels (level + 1) ∧ fourth.Fits levels (level + 1)

/-- How many of the decisions are drawn, which are those from a least level
on. -/
def draws (least : Nat) : Growth -> Nat -> Nat
  | .kept, level => if least ≤ level then 1 else 0
  | .replaced first second third fourth, level =>
      (if least ≤ level then 1 else 0) +
        (first.draws least (level + 1) + second.draws least (level + 1) +
          third.draws least (level + 1) + fourth.draws least (level + 1))

end Growth

/-!
## Decisions from words
-/

namespace Levels

open WordSource

variable {σ : Type} [WordSource σ]

/-- Below the least level nothing is drawn, and from there on two words are
taken. -/
theorem keeps_cases {levels : Levels} {level : Nat} {s t : σ} {keep : Bool}
    (h : levels.keeps level s = (.ok keep, t)) :
    level < levels.least ∧ keep = false ∧ t = s ∨
      levels.least ≤ level ∧ t = skip 2 s := by
  by_cases hleast : levels.least ≤ level
  · apply Or.inr
    refine ⟨hleast, ?_⟩
    have hodds :
        levels.odds? level = some ((levels.greatest : Int) - level + 1) := by
      rw [odds?, if_pos hleast]
    have hrun := (keeps_run_of_odds_eq_some s hodds).symm.trans h
    rw [Draw.oneIn_run] at hrun
    split at hrun
    · cases hrun
    · exact (congrArg Prod.snd hrun).symm
  · apply Or.inl
    have hodds : levels.odds? level = none := by
      rw [odds?, if_neg hleast]
    have hrun := (keeps_run_of_odds_eq_none s hodds).symm.trans h
    cases hrun
    exact ⟨by omega, rfl, rfl⟩

/-- A decision is made about every edge up to the greatest level, as long as
the number of levels is one that can be drawn. -/
theorem exists_keeps {levels : Levels} {level : Nat}
    (hlevel : level ≤ levels.greatest)
    (hroom : (levels.greatest : Int) - levels.least + 1 ≤ DrawError.maxBound)
    (s : σ) : exists keep t, levels.keeps level s = (.ok keep, t) := by
  by_cases hleast : levels.least ≤ level
  · have hodds :
        levels.odds? level = some ((levels.greatest : Int) - level + 1) := by
      rw [odds?, if_pos hleast]
    have hbound : (0 : Int) < levels.greatest - level + 1 ∧
        (levels.greatest : Int) - level + 1 ≤ DrawError.maxBound := by
      omega
    have hrun := keeps_run_of_odds_eq_some s hodds
    rw [Draw.oneIn_run, Draw.checkBound, if_pos hbound] at hrun
    exact ⟨_, _, hrun⟩
  · have hodds : levels.odds? level = none := by
      rw [odds?, if_neg hleast]
    exact ⟨_, _, keeps_run_of_odds_eq_none s hodds⟩

end Levels

namespace Growth

open Subdivision WordSource

variable {P σ : Type} [WordSource σ] {cut : Cut P} {levels : Levels}

/-- What a recursion yields are the edges of a growth, and it has taken two
words for each decision that is drawn. -/
theorem exists_of_walk {a b : P} {level : Nat} (hlevel : level ≤ levels.greatest)
    {s t : σ} {edges : List (Edge P)}
    (h : walk cut levels a b level s = (.ok edges, t)) :
    exists growth : Growth, growth.Fits levels level ∧
      growth.edges cut a b level = edges ∧
      t = skip (2 * growth.draws levels.least level) s := by
  rw [walk_eq] at h
  rcases Attempt.exists_of_bind_eq_ok h with ⟨keep, u, hkeep, h⟩
  have hcases := Levels.keeps_cases hkeep
  cases keep with
  | true =>
      cases h
      rcases hcases with ⟨_, hfalse, _⟩ | ⟨hleast, hskip⟩
      · cases hfalse
      · refine ⟨.kept, ⟨hleast, hlevel⟩, rfl, ?_⟩
        rw [draws, if_pos hleast]
        exact hskip
  | false =>
      have hlt := Levels.lt_greatest_of_keeps hkeep
      rcases Attempt.exists_of_bind_eq_ok h with ⟨_, _, hfirst, h⟩
      rcases Attempt.exists_of_bind_eq_ok h with ⟨_, _, hsecond, h⟩
      rcases Attempt.exists_of_bind_eq_ok h with ⟨_, _, hthird, h⟩
      rcases Attempt.exists_of_bind_eq_ok h with ⟨_, _, hfourth, h⟩
      cases h
      rcases exists_of_walk hlt hfirst with ⟨first, hfits₁, rfl, rfl⟩
      rcases exists_of_walk hlt hsecond with ⟨second, hfits₂, rfl, rfl⟩
      rcases exists_of_walk hlt hthird with ⟨third, hfits₃, rfl, rfl⟩
      rcases exists_of_walk hlt hfourth with ⟨fourth, hfits₄, rfl, rfl⟩
      refine ⟨.replaced first second third fourth,
        ⟨hlt, hfits₁, hfits₂, hfits₃, hfits₄⟩, rfl, ?_⟩
      have hskip : u = skip (2 * if levels.least ≤ level then 1 else 0) s := by
        rcases hcases with ⟨hbelow, _, hsame⟩ | ⟨hleast, hskip⟩
        · rw [hsame, if_neg (by omega)]
          rfl
        · rw [hskip, if_pos hleast]
      simp only [draws, hskip, skip_skip, Nat.mul_add, Nat.add_assoc]
termination_by levels.greatest - level

/-- The recursion ends with edges, whatever the words are. -/
theorem exists_walk (cut : Cut P)
    (hroom : (levels.greatest : Int) - levels.least + 1 ≤ DrawError.maxBound)
    (a b : P) {level : Nat} (hlevel : level ≤ levels.greatest) (s : σ) :
    exists edges t, walk cut levels a b level s = (.ok edges, t) := by
  rcases Levels.exists_keeps hlevel hroom s with ⟨keep, u, hkeep⟩
  rw [walk_eq, Attempt.bind_apply, hkeep]
  cases keep with
  | true => exact ⟨_, _, rfl⟩
  | false =>
      have hnext : level + 1 ≤ levels.greatest :=
        Levels.lt_greatest_of_keeps hkeep
      rcases hcut : cut a b with ⟨p, q, r⟩
      rcases exists_walk cut hroom a p hnext u with ⟨_, t₁, hfirst⟩
      rcases exists_walk cut hroom p q hnext t₁ with ⟨_, t₂, hsecond⟩
      rcases exists_walk cut hroom q r hnext t₂ with ⟨_, t₃, hthird⟩
      rcases exists_walk cut hroom r b hnext t₃ with ⟨_, t₄, hfourth⟩
      simp only [Bool.false_eq_true, if_false, Attempt.bind_apply, hfirst,
        hsecond, hthird, hfourth]
      exact ⟨_, _, rfl⟩
termination_by levels.greatest - level

end Growth

end SphereFixtures
