import SphereFixtures.Fractal.Snowflake
import SphereFixtures.Proofs.Random.Attempt
import SphereFixtures.Random.Twister

/-!
# The recursion behind the work stack

An edge is subdivided by a recursion over its parts.  The work stack holds what
the recursion still has to do, so a run of the stack takes the same words, keeps
the same edges and fails in the same way.
-/

namespace SphereFixtures

/-!
## Steps of the stack
-/

namespace Work

variable {P : Type} {σ : Type} [WordSource σ]

theorem run_eq (cut : Cut P) (levels : Levels) (work : Work P σ) :
    work.run cut levels =
      match work.step cut levels with
      | .finished kept source => (.ok kept, source)
      | .refused error source => (.error error, source)
      | .more next => next.run cut levels := by
  rw [run]
  split <;> next hstep => rw [hstep]

theorem step_cons (cut : Cut P) (levels : Levels) (e : Edge P)
    (pending : List (Edge P)) (kept : Array (Edge P)) (source : σ) :
    step cut levels
        { pending := e :: pending, kept := kept, source := source } =
      match levels.keeps e.level source with
      | (.error error, next) => .refused error next
      | (.ok true, next) =>
          .more { pending := pending, kept := kept.push e, source := next }
      | (.ok false, next) =>
          .more
            { pending := e.split cut ++ pending, kept := kept, source := next } :=
  rfl

end Work

namespace Subdivision

variable {P : Type} {σ : Type} [WordSource σ]

/-- What a stack of pending edges has to do, as an attempt. -/
def pursue (cut : Cut P) (levels : Levels) (pending : List (Edge P))
    (kept : Array (Edge P)) : Attempt DrawError σ (Array (Edge P)) :=
  fun source => Work.run cut levels
    { pending := pending, kept := kept, source := source }

theorem pursue_nil (cut : Cut P) (levels : Levels) (kept : Array (Edge P)) :
    (pursue cut levels [] kept : Attempt DrawError σ (Array (Edge P))) =
      pure kept := by
  funext source
  rw [pursue, Work.run_eq]
  rfl

/-- The decision about the top of the stack is drawn when it is taken off. -/
theorem pursue_cons (cut : Cut P) (levels : Levels) (e : Edge P)
    (pending : List (Edge P)) (kept : Array (Edge P)) :
    (pursue cut levels (e :: pending) kept :
        Attempt DrawError σ (Array (Edge P))) =
      levels.keeps e.level >>= fun keep =>
        if keep then pursue cut levels pending (kept.push e)
        else pursue cut levels (e.split cut ++ pending) kept := by
  funext source
  rw [pursue, Work.run_eq, Work.step_cons, Attempt.bind_apply]
  rcases levels.keeps e.level source with ⟨_ | keep, t⟩
  · rfl
  · cases keep <;> rfl

/-!
## The recursion
-/

/-- The edges that an edge is subdivided into, in their order.  It is either
kept, or its four parts are subdivided one after another. -/
def walk (cut : Cut P) (levels : Levels) (a b : P) (level : Nat) :
    Attempt DrawError σ (List (Edge P)) := fun source =>
  match hkeeps : (levels.keeps level).run.run source with
  | (.error error, source) => (.error error, source)
  | (.ok true, source) =>
      (.ok [{ start := a, stop := b, level := level }], source)
  | (.ok false, source) =>
      have := Levels.lt_greatest_of_keeps hkeeps
      let parts : Attempt DrawError σ (List (Edge P)) := do
        let (p, q, r) := cut a b
        let first ← walk cut levels a p (level + 1)
        let second ← walk cut levels p q (level + 1)
        let third ← walk cut levels q r (level + 1)
        let fourth ← walk cut levels r b (level + 1)
        return first ++ second ++ third ++ fourth
      parts.run.run source
termination_by levels.greatest - level

theorem walk_eq (cut : Cut P) (levels : Levels) (a b : P) (level : Nat) :
    (walk cut levels a b level : Attempt DrawError σ (List (Edge P))) = do
      if ← levels.keeps level then
        return [{ start := a, stop := b, level := level }]
      else
        let (p, q, r) := cut a b
        let first ← walk cut levels a p (level + 1)
        let second ← walk cut levels p q (level + 1)
        let third ← walk cut levels q r (level + 1)
        let fourth ← walk cut levels r b (level + 1)
        return first ++ second ++ third ++ fourth := by
  funext source
  rw [walk, Attempt.bind_apply]
  split
  · next hkeeps =>
      rw [show levels.keeps level source = _ from hkeeps]
  · next hkeeps =>
      rw [show levels.keeps level source = _ from hkeeps]
      rfl
  · next hkeeps =>
      rw [show levels.keeps level source = _ from hkeeps]
      rfl

/-- From the greatest level on no edge is replaced, so it does not matter what
would follow. -/
theorem keeps_bind_congr {levels : Levels} {level : Nat} {β : Type}
    (hlevel : levels.greatest ≤ level) {f g : Bool -> Attempt DrawError σ β}
    (htrue : f true = g true) :
    levels.keeps level >>= f = levels.keeps level >>= g := by
  funext source
  rw [Attempt.bind_apply, Attempt.bind_apply]
  rcases hkeeps : levels.keeps level source with ⟨_ | keep, t⟩
  · rfl
  · cases keep with
    | true => exact congrFun htrue t
    | false =>
        have := Levels.lt_greatest_of_keeps hkeeps
        omega

/-- The top of the stack is subdivided completely before the next pending edge
has its turn. -/
theorem pursue_cons_eq_walk (cut : Cut P) (levels : Levels) (e : Edge P)
    (pending : List (Edge P)) (kept : Array (Edge P)) :
    (pursue cut levels (e :: pending) kept :
        Attempt DrawError σ (Array (Edge P))) =
      walk cut levels e.start e.stop e.level >>= fun edges =>
        pursue cut levels pending (kept ++ edges.toArray) := by
  -- induction on the number of levels below the greatest one
  induction hdepth : levels.greatest - e.level generalizing e pending kept with
  | zero =>
      rw [pursue_cons, walk_eq, bind_assoc]
      apply keeps_bind_congr (by omega)
      simp
  | succ depth ih =>
      rw [pursue_cons, walk_eq, bind_assoc]
      congr 1
      funext keep
      cases keep with
      | true => simp
      | false =>
          have hnext : levels.greatest - (e.level + 1) = depth := by omega
          simp [Edge.split, ih, hnext]

/-!
## Boundaries
-/

theorem side_eq_walk (cut : Cut P) (levels : Levels) (kept : Array (Edge P))
    (start stop : P) :
    (side cut levels kept start stop : Attempt DrawError σ (Array (Edge P))) =
      do
        let edges ← walk cut levels start stop 0
        return kept ++ edges.toArray := by
  show pursue cut levels [{ start := start, stop := stop, level := 0 }] kept = _
  simp only [pursue_cons_eq_walk, pursue_nil]

theorem boundary_triangle_eq_walks (cut : Cut P) (levels : Levels)
    (a b c : P) :
    (boundary cut levels [(a, b), (b, c), (c, a)] :
        Attempt DrawError σ (Array (Edge P))) =
      do
        let first ← walk cut levels a b 0
        let second ← walk cut levels b c 0
        let third ← walk cut levels c a 0
        return (first ++ second ++ third).toArray := by
  simp [boundary, side_eq_walk]

end Subdivision

namespace Settings

theorem levels?_eq_some {α : Type} {s : Settings α} (hmax : 0 ≤ s.maxLevel) :
    exists levels, s.levels? = some levels ∧
      (levels.least : Int) = s.leastLevel ∧
      (levels.greatest : Int) = s.maxLevel := by
  refine ⟨_, dif_pos hmax, ?_, ?_⟩
  · have hleast : 0 ≤ s.leastLevel := by
      unfold leastLevel
      split <;> omega
    exact Int.toNat_of_nonneg hleast
  · exact Int.toNat_of_nonneg hmax

end Settings

namespace Subdivision

open Snowflake

/-- A run of the work stack is the recursion, as a function of the source: the
same edges are appended or the same error is met, and the same state is left.
The source is any one, also one that records its words, so these are the same
and in the same order.  The vertices of a boundary are those of the three
recursions on the sides of the triangle. -/
theorem stack_refines_recursion {P α σ : Type} [Scalar α] [WordSource σ]
    (cut : Cut P) (levels : Levels) (kept : Array (Edge P)) (start stop : P)
    (s : Settings α) (hmax : 0 ≤ s.maxLevel) :
    (side cut levels kept start stop : Attempt DrawError σ (Array (Edge P))) =
        (do
          let edges ← walk cut levels start stop 0
          return kept ++ edges.toArray) ∧
      exists levels, s.levels? = some levels ∧
        (levels.least : Int) = s.leastLevel ∧
        (levels.greatest : Int) = s.maxLevel ∧
        (s.vertices : Attempt GrowthError σ (Array (Vec2 α))) =
          ExceptT.adapt .draw (do
            let first ← walk s.cut levels cornerA cornerB 0
            let second ← walk s.cut levels cornerB cornerC 0
            let third ← walk s.cut levels cornerC cornerA 0
            return ((first ++ second ++ third).map Edge.start).toArray) := by
  refine ⟨side_eq_walk cut levels kept start stop, ?_⟩
  rcases Settings.levels?_eq_some hmax with ⟨levels, hlevels, hleast, hgreatest⟩
  refine ⟨levels, hlevels, hleast, hgreatest, ?_⟩
  rw [Settings.vertices, Settings.boundary, hlevels]
  show ((boundary s.cut levels sides).adapt .draw >>= fun edges =>
    pure (edges.map Edge.start) : Attempt GrowthError σ (Array (Vec2 α))) = _
  rw [Attempt.adapt_bind_pure, sides, boundary_triangle_eq_walks]
  simp

/-- Edges that may stay from the first level on, up to the second one. -/
theorem stack_refines_recursion_of_two_levels :
    let s : Settings Float := { maxLevel := 2, minLevel := 1, dimension := 1.5 }
    0 ≤ s.maxLevel ∧
      (side s.cut (Levels.single 2) #[] cornerA cornerB :
          Attempt DrawError Twister (Array (Edge (Vec2 Float)))) =
        (do
          let edges ← walk s.cut (Levels.single 2) cornerA cornerB 0
          return #[] ++ edges.toArray) ∧
      exists levels, s.levels? = some levels ∧
        (levels.least : Int) = 1 ∧ (levels.greatest : Int) = 2 ∧
        (s.vertices : Attempt GrowthError Twister (Array (Vec2 Float))) =
          ExceptT.adapt .draw (do
            let first ← walk s.cut levels cornerA cornerB 0
            let second ← walk s.cut levels cornerB cornerC 0
            let third ← walk s.cut levels cornerC cornerA 0
            return ((first ++ second ++ third).map Edge.start).toArray) := by
  intro s
  have hmax : 0 ≤ s.maxLevel := by decide
  exact ⟨hmax, stack_refines_recursion s.cut (Levels.single 2) #[]
    cornerA cornerB s hmax⟩

end Subdivision

end SphereFixtures
