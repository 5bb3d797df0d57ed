import SphereFixtures.Proofs.Fractal.Realization
import SphereFixtures.Random.Seed

/-!
# The work stack

Each edge that is taken off the stack is kept or gives way to four others, so the
number of kept edges tells how often an edge was taken.  The stack is empty at the
end whatever the words are, and it is never higher than three edges for each
level and one more.
-/

namespace SphereFixtures

namespace Work

variable {P σ : Type} [WordSource σ]

/-!
## Taking edges off the stack
-/

/-- The work after a number of edges were taken off the stack, as long as there
was one to take and no decision was refused. -/
def after (cut : Cut P) (levels : Levels) : Nat -> Work P σ -> Option (Work P σ)
  | 0, work => some work
  | pops + 1, work =>
      match work.step cut levels with
      | .more next => after cut levels pops next
      | .finished _ _ | .refused _ _ => none

variable {cut : Cut P} {levels : Levels} {work next last : Work P σ}

theorem after_succ_of_step (h : work.step cut levels = .more next) (pops : Nat) :
    work.after cut levels (pops + 1) = next.after cut levels pops := by
  rw [after, h]

theorem exists_step_of_after_succ {pops : Nat}
    (h : work.after cut levels (pops + 1) = some last) :
    exists next, work.step cut levels = .more next ∧
      next.after cut levels pops = some last := by
  rw [after] at h
  split at h
  · next hstep => exact ⟨_, hstep, h⟩
  · cases h
  · cases h

/-- What holds between work and itself, and is handed on by one edge that is
taken, holds between work and all that becomes of it. -/
theorem of_after {R : Nat -> Work P σ -> Work P σ -> Prop}
    (refl : forall work, R 0 work work)
    (step : forall {work next last pops}, work.step cut levels = .more next ->
      R pops next last -> R (pops + 1) work last)
    {pops : Nat} (h : work.after cut levels pops = some last) :
    R pops work last := by
  induction pops generalizing work with
  | zero =>
      cases h
      exact refl _
  | succ pops ih =>
      rcases exists_step_of_after_succ h with ⟨next, hstep, hrest⟩
      exact step hstep (ih hrest)

theorem after_add (pops more : Nat) :
    work.after cut levels (pops + more) =
      (work.after cut levels pops).bind (after cut levels more) := by
  induction pops generalizing work with
  | zero => rw [Nat.zero_add, after, Option.bind_some]
  | succ pops ih =>
      rw [Nat.succ_add, after, after]
      split
      · exact ih
      · rfl
      · rfl

/-- The loop does not go on when the stack is empty. -/
theorem eq_zero_of_after_empty {kept : Array (Edge P)} {source : σ} {pops : Nat}
    (h : after cut levels pops
      { pending := [], kept := kept, source := source } = some last) :
    pops = 0 := by
  cases pops with
  | zero => rfl
  | succ pops => cases h

/-- All work on the way to an empty stack has the rest of the way before it. -/
theorem exists_rest_of_after_empty {kept : Array (Edge P)} {source : σ}
    {total pops : Nat}
    (hend : work.after cut levels total =
      some { pending := [], kept := kept, source := source })
    (h : work.after cut levels pops = some next) :
    exists rest, total = pops + rest ∧
      next.after cut levels rest =
        some { pending := [], kept := kept, source := source } := by
  rcases Nat.le_total pops total with hle | hle
  · rcases Nat.exists_eq_add_of_le hle with ⟨rest, rfl⟩
    rw [after_add, h] at hend
    exact ⟨rest, rfl, hend⟩
  · rcases Nat.exists_eq_add_of_le hle with ⟨more, rfl⟩
    rw [after_add, hend] at h
    cases eq_zero_of_after_empty h
    cases h
    exact ⟨0, rfl, rfl⟩

/-- An edge that is taken off the stack joins the kept ones, or it is of a level
below the greatest and its four parts take its place. -/
theorem step_cases (h : work.step cut levels = .more next) :
    exists e rest, work.pending = e :: rest ∧
      (next.pending = rest ∧ next.kept = work.kept.push e ∨
        e.level < levels.greatest ∧
          next.pending = e.split cut ++ rest ∧ next.kept = work.kept) := by
  rcases work with ⟨_ | ⟨e, rest⟩, kept, source⟩
  · cases h
  · refine ⟨e, rest, rfl, ?_⟩
    rw [step_cons] at h
    rcases hkeeps : levels.keeps e.level source with ⟨_ | keep, t⟩
    · rw [hkeeps] at h
      cases h
    · rw [hkeeps] at h
      cases keep with
      | true =>
          cases h
          exact Or.inl ⟨rfl, rfl⟩
      | false =>
          cases h
          exact Or.inr ⟨Levels.lt_greatest_of_keeps hkeeps, rfl, rfl⟩

/-!
## The height of the stack
-/

/-- Whether the edges of a stack are within the levels, each of them above at
most three edges for every level that it is deep. -/
def Stacked (levels : Levels) : List (Edge P) -> Prop
  | [] => True
  | e :: rest =>
      e.level ≤ levels.greatest ∧ rest.length ≤ 3 * e.level ∧ Stacked levels rest

theorem stacked_whole (levels : Levels) (start stop : P) :
    Stacked levels [{ start := start, stop := stop, level := 0 }] :=
  ⟨Nat.zero_le _, Nat.le_refl _, trivial⟩

theorem Stacked.level_le {pending : List (Edge P)} (h : Stacked levels pending)
    {e : Edge P} (he : e ∈ pending) : e.level ≤ levels.greatest := by
  induction pending with
  | nil => cases he
  | cons d rest ih =>
      rcases List.mem_cons.mp he with rfl | hrest
      · exact h.left
      · exact ih h.right.right hrest

theorem Stacked.length_le {pending : List (Edge P)} (h : Stacked levels pending) :
    pending.length ≤ 3 * levels.greatest + 1 := by
  cases pending with
  | nil => exact Nat.zero_le _
  | cons e rest =>
      rcases h with ⟨hlevel, hlength, _⟩
      have hdepth : 3 * e.level ≤ 3 * levels.greatest :=
        Nat.mul_le_mul_left 3 hlevel
      exact Nat.succ_le_succ (hlength.trans hdepth)

/-- The parts of an edge are one level deeper and three more than the edge. -/
theorem Stacked.split {e : Edge P} {rest : List (Edge P)}
    (h : Stacked levels (e :: rest)) (hlevel : e.level < levels.greatest) :
    Stacked levels (e.split cut ++ rest) := by
  rcases h with ⟨_, hlength, hrest⟩
  simp only [Edge.split, List.cons_append, List.nil_append, Stacked,
    List.length_cons]
  refine ⟨hlevel, ?_, hlevel, ?_, hlevel, ?_, hlevel, ?_, hrest⟩
  all_goals omega

theorem Stacked.step (h : Stacked levels work.pending)
    (hstep : work.step cut levels = .more next) :
    Stacked levels next.pending := by
  rcases step_cases hstep with
    ⟨e, rest, hpending, ⟨hnext, _⟩ | ⟨hlevel, hnext, _⟩⟩
  · rw [hpending] at h
    rw [hnext]
    exact h.right.right
  · rw [hpending] at h
    rw [hnext]
    exact h.split hlevel

theorem Stacked.after {pops : Nat} (h : Stacked levels work.pending)
    (hafter : work.after cut levels pops = some last) :
    Stacked levels last.pending := by
  refine of_after (R := fun _ work last =>
    Stacked levels work.pending -> Stacked levels last.pending) ?_ ?_ hafter h
  · intro work h
    exact h
  · intro work next last pops hstep hrest h
    exact hrest (h.step hstep)

/-!
## The number of edges taken
-/

/-- Each edge that is taken brings three more to the stack, unless it is kept and
leaves it. -/
theorem balance_step (h : work.step cut levels = .more next) :
    3 + 4 * work.kept.size + work.pending.length =
      4 * next.kept.size + next.pending.length := by
  rcases step_cases h with
    ⟨e, rest, hpending, ⟨hnext, hkept⟩ | ⟨_, hnext, hkept⟩⟩
  · rw [hpending, hnext, hkept, Array.size_push, List.length_cons]
    omega
  · rw [hpending, hnext, hkept, List.length_append, Edge.length_split,
      List.length_cons]
    omega

theorem balance_after {pops : Nat}
    (h : work.after cut levels pops = some last) :
    3 * pops + 4 * work.kept.size + work.pending.length =
      4 * last.kept.size + last.pending.length := by
  refine of_after (R := fun pops work last =>
    3 * pops + 4 * work.kept.size + work.pending.length =
      4 * last.kept.size + last.pending.length) ?_ ?_ h
  · intro work
    rw [Nat.mul_zero, Nat.zero_add]
  · intro work next last pops hstep hrest
    have hfirst := balance_step hstep
    omega

theorem exists_kept_of_after {pops : Nat}
    (h : work.after cut levels pops = some last) :
    exists edges : List (Edge P), last.kept = work.kept ++ edges.toArray := by
  refine of_after (R := fun _ work last =>
    exists edges : List (Edge P), last.kept = work.kept ++ edges.toArray) ?_ ?_ h
  · intro work
    exact ⟨[], Array.append_empty.symm⟩
  · intro work next last pops hstep hrest
    rcases hrest with ⟨edges, hedges⟩
    rcases step_cases hstep with ⟨e, _, _, ⟨_, hkept⟩ | ⟨_, _, hkept⟩⟩
    · refine ⟨e :: edges, ?_⟩
      rw [hedges, hkept]
      simp
    · refine ⟨edges, ?_⟩
      rw [hedges, hkept]

/-- How many edges of all levels an edge leads to if none is kept before the
last of a number of levels. -/
def mostEdges : Nat -> Nat
  | 0 => 1
  | depth + 1 => 4 * mostEdges depth + 1

theorem three_mul_mostEdges (depth : Nat) :
    3 * mostEdges depth + 1 = 4 ^ (depth + 1) := by
  induction depth with
  | zero => rfl
  | succ depth ih =>
      rw [Nat.pow_succ, ← ih, mostEdges]
      omega

/-- How many edges may still be taken off a stack. -/
def budget (levels : Levels) (pending : List (Edge P)) : Nat :=
  (pending.map fun e => mostEdges (levels.greatest - e.level)).sum

theorem budget_cons (levels : Levels) (e : Edge P) (rest : List (Edge P)) :
    budget levels (e :: rest) =
      mostEdges (levels.greatest - e.level) + budget levels rest := by
  rw [budget, List.map_cons, List.sum_cons]
  rfl

theorem budget_split {e : Edge P} (h : e.level < levels.greatest)
    (rest : List (Edge P)) :
    budget levels (e.split cut ++ rest) + 1 = budget levels (e :: rest) := by
  have hdepth :
      levels.greatest - e.level = levels.greatest - (e.level + 1) + 1 := by
    omega
  simp only [Edge.split, List.cons_append, List.nil_append, budget_cons]
  rw [hdepth, mostEdges]
  omega

theorem budget_step (h : work.step cut levels = .more next) :
    budget levels next.pending + 1 ≤ budget levels work.pending := by
  rcases step_cases h with
    ⟨e, rest, hpending, ⟨hnext, _⟩ | ⟨hlevel, hnext, _⟩⟩
  · have hone := three_mul_mostEdges (levels.greatest - e.level)
    have hpos : 4 ≤ 4 ^ (levels.greatest - e.level + 1) :=
      Nat.le_self_pow (Nat.succ_ne_zero _) 4
    rw [hpending, hnext, budget_cons]
    omega
  · rw [hpending, hnext, budget_split hlevel]

theorem budget_after {pops : Nat} (h : work.after cut levels pops = some last) :
    pops + budget levels last.pending ≤ budget levels work.pending := by
  refine of_after (R := fun pops work last =>
    pops + budget levels last.pending ≤ budget levels work.pending) ?_ ?_ h
  · intro work
    rw [Nat.zero_add]
  · intro work next last pops hstep hrest
    have hfirst := budget_step hstep
    omega

/-!
## The end of the loop
-/

/-- The odds of a decision are never worse than those of the least level, nor
better than one in one. -/
theorem odds_range {level : Nat} (hlevel : level ≤ levels.greatest) {n : Int}
    (h : levels.odds? level = some n) :
    1 ≤ n ∧ n ≤ (levels.greatest : Int) - levels.least + 1 := by
  rw [Levels.odds?] at h
  split at h
  · cases h
    omega
  · cases h

variable (cut)
  (hroom : (levels.greatest : Int) - levels.least + 1 ≤ DrawError.maxBound)

include hroom

/-- While there are edges on the stack the loop goes on. -/
theorem exists_step (h : Stacked levels work.pending) (hpending : work.pending ≠ []) :
    exists next, work.step cut levels = .more next := by
  rcases work with ⟨_ | ⟨e, rest⟩, kept, source⟩
  · exact absurd rfl hpending
  · rcases Levels.exists_keeps h.left hroom source with ⟨keep, t, hkeep⟩
    rw [step_cons, hkeep]
    cases keep with
    | true => exact ⟨_, rfl⟩
    | false => exact ⟨_, rfl⟩

/-- The loop ends with an empty stack. -/
theorem exists_after_empty (h : Stacked levels work.pending) :
    exists pops kept source,
      work.after cut levels pops =
        some { pending := [], kept := kept, source := source } ∧
      work.run cut levels = (.ok kept, source) := by
  -- induction on the number of edges that may still be taken
  induction hbudget : budget levels work.pending using Nat.strong_induction_on
    generalizing work with
  | _ count ih =>
      by_cases hpending : work.pending = []
      · rcases work with ⟨pending, kept, source⟩
        cases hpending
        refine ⟨0, kept, source, rfl, ?_⟩
        rw [run_eq]
        rfl
      · rcases exists_step cut hroom h hpending with ⟨next, hstep⟩
        have hless := budget_step hstep
        rcases ih (budget levels next.pending) (by omega) (h.step hstep) rfl with
          ⟨pops, kept, source, hafter, hrun⟩
        refine ⟨pops + 1, kept, source, ?_, ?_⟩
        · rw [after_succ_of_step hstep, hafter]
        · rw [run_eq, hstep]
          exact hrun

theorem exists_after_whole (kept : Array (Edge P)) (start stop : P) (source : σ) :
    let whole : Edge P := { start := start, stop := stop, level := 0 }
    let first : Work P σ := { pending := [whole], kept := kept, source := source }
    exists (edges : List (Edge P)) (last : σ) (pops : Nat),
      first.after cut levels pops =
        some { pending := [], kept := kept ++ edges.toArray, source := last } ∧
      first.run cut levels = (.ok (kept ++ edges.toArray), last) ∧
      4 * edges.length = 3 * pops + 1 ∧
      3 * pops + 1 ≤ 4 ^ (levels.greatest + 1) := by
  intro whole first
  have hstacked : Stacked levels first.pending := stacked_whole levels start stop
  rcases exists_after_empty cut hroom hstacked with
    ⟨pops, all, last, hafter, hrun⟩
  rcases exists_kept_of_after hafter with ⟨edges, hedges⟩
  have hbalance : 3 * pops + 4 * kept.size + 1 = 4 * all.size + 0 :=
    balance_after hafter
  have hbudget : pops + 0 ≤ mostEdges levels.greatest + 0 :=
    budget_after hafter
  have hall : all = kept ++ edges.toArray := hedges
  have hfull := three_mul_mostEdges levels.greatest
  subst hall
  have hsize : (kept ++ edges.toArray).size = kept.size + edges.length :=
    Array.size_append
  refine ⟨edges, last, pops, hafter, hrun, ?_, ?_⟩
  · omega
  · omega

end Work

/-!
## One side of the triangle
-/

namespace Settings

open Snowflake Subdivision

/-- The loop about one side takes off as many edges as the kept ones require,
whatever the words are.  Up to then the stack is not empty, no edge on it is
deeper than the greatest level, it is no higher than three edges for each level
and one more, and every decision is drawn with a bound in range. -/
theorem subdivision_ends_within_stack {α P σ : Type} [WordSource σ]
    (s : Settings α) {m M : Nat} (hleast : s.leastLevel = m)
    (hgreatest : s.maxLevel = M)
    (hroom : (M : Int) - m + 1 ≤ DrawError.maxBound) (cut : Cut P)
    (kept : Array (Edge P)) (start stop : P) (source : σ) :
    exists levels, s.levels? = some levels ∧
      exists (edges : List (Edge P)) (last : σ),
        (side cut levels kept start stop).run.run source =
          (.ok (kept ++ edges.toArray), last) ∧
        let whole : Edge P := { start := start, stop := stop, level := 0 }
        let first : Work P σ :=
          { pending := [whole], kept := kept, source := source }
        let total := (4 * edges.length - 1) / 3
        4 * edges.length = 3 * total + 1 ∧ total ≤ (4 ^ (M + 1) - 1) / 3 ∧
          first.after cut levels total =
            some { pending := [], kept := kept ++ edges.toArray, source := last } ∧
          forall (pops : Nat) (work : Work P σ),
            first.after cut levels pops = some work ->
            pops ≤ total ∧ (pops < total -> work.pending ≠ []) ∧
              (forall e, e ∈ work.pending -> e.level ≤ M) ∧
              work.pending.length ≤ 3 * M + 1 ∧
              (forall e rest, work.pending = e :: rest ->
                (forall n, levels.odds? e.level = some n ->
                  1 ≤ n ∧ n ≤ (M : Int) - m + 1) ∧
                exists keep t,
                  (levels.keeps e.level).run.run work.source = (.ok keep, t)) := by
  have hmax : 0 ≤ s.maxLevel := by
    rw [hgreatest]
    exact Int.natCast_nonneg M
  rcases levels?_eq_some hmax with ⟨levels, hlevels, _⟩
  rcases eq_of_levels?_eq_some hlevels hleast hgreatest with ⟨rfl, rfl⟩
  rcases Work.exists_after_whole cut hroom kept start stop source with
    ⟨edges, last, total, hafter, hrun, hcount, hmost⟩
  have htotal : (4 * edges.length - 1) / 3 = total := by omega
  refine ⟨levels, hlevels, edges, last, hrun, ?_⟩
  intro whole first
  rw [htotal]
  refine ⟨hcount, by omega, hafter, ?_⟩
  intro pops work hwork
  have hstacked : Work.Stacked levels work.pending :=
    (Work.stacked_whole levels start stop).after hwork
  rcases Work.exists_rest_of_after_empty hafter hwork with ⟨left, hsum, hleft⟩
  refine ⟨?_, ?_, ?_, hstacked.length_le, ?_⟩
  · rw [hsum]
    exact Nat.le_add_right pops left
  · intro hless hempty
    rcases work with ⟨pending, _, _⟩
    cases hempty
    have hnone := Work.eq_zero_of_after_empty hleft
    omega
  · intro e he
    exact hstacked.level_le he
  · intro e rest hpending
    rw [hpending] at hstacked
    constructor
    · intro n hodds
      exact Work.odds_range hstacked.left hodds
    · exact Levels.exists_keeps hstacked.left hroom work.source

/-- Edges that may stay from the first level on, up to the third one, are at
most ten on the stack. -/
theorem subdivision_ends_from_first_to_third_level :
    let s : Settings Float := { maxLevel := 3, minLevel := 1, dimension := 1.5 }
    let source := Twister.ofSeed Seed.default
    s.leastLevel = (1 : Nat) ∧ s.maxLevel = (3 : Nat) ∧
      (3 : Nat) - (1 : Nat) + 1 ≤ DrawError.maxBound ∧
      exists levels, s.levels? = some levels ∧
        exists (edges : List (Edge (Vec2 Float))) (last : Twister),
          (side s.cut levels #[] cornerA cornerB).run.run source =
            (.ok (#[] ++ edges.toArray), last) ∧
          let whole : Edge (Vec2 Float) :=
            { start := cornerA, stop := cornerB, level := 0 }
          let first : Work (Vec2 Float) Twister :=
            { pending := [whole], kept := #[], source := source }
          (4 * edges.length - 1) / 3 ≤ 85 ∧
            forall (pops : Nat) (work : Work (Vec2 Float) Twister),
              first.after s.cut levels pops = some work ->
              pops ≤ (4 * edges.length - 1) / 3 ∧ work.pending.length ≤ 10 := by
  intro s source
  have hleast : s.leastLevel = (1 : Nat) := by decide
  have hgreatest : s.maxLevel = (3 : Nat) := by decide
  have hroom : ((3 : Nat) : Int) - (1 : Nat) + 1 ≤ DrawError.maxBound := by decide
  rcases subdivision_ends_within_stack s hleast hgreatest hroom s.cut #[]
      cornerA cornerB source with
    ⟨levels, hlevels, edges, last, hrun, _, hmost, _, hduring⟩
  refine ⟨hleast, hgreatest, hroom, levels, hlevels, edges, last, hrun, hmost, ?_⟩
  intro pops work hwork
  rcases hduring pops work hwork with ⟨hpops, _, _, hheight, _⟩
  exact ⟨hpops, hheight⟩

end Settings

end SphereFixtures
