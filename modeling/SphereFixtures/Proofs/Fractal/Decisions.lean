import SphereFixtures.Proofs.Fractal.Realization

/-!
# Decisions by any kind of draw

What a subdivision draws are answers to questions about odds, and it does the
same whoever gives them.  Answered from words it is the recursion over the parts
of an edge; answered otherwise it is the same process with other draws.
-/

namespace SphereFixtures

namespace Levels

variable {m : Type -> Type} [Monad m]

/-- Whether an edge of some level is kept, for a given way to draw what is true
once in a number of times. -/
def asks (levels : Levels) (oneIn : Int -> m Bool) (level : Nat) : m Bool :=
  match levels.odds? level with
  | some n => oneIn n
  | none => return false

theorem asks_eq_keeps {σ : Type} [WordSource σ] (levels : Levels) :
    (levels.asks Draw.oneIn : Nat -> Attempt DrawError σ Bool) = levels.keeps :=
  rfl

end Levels

namespace Growth

variable {m : Type -> Type} [Monad m]

/-- The decisions about an edge and about its parts, one after another.  With no
further level to go the answer is still drawn, but the edge is kept. -/
def drawn (keeps : Nat -> m Bool) : Nat -> Nat -> m Growth
  | 0, level => do
      let _ ← keeps level
      return .kept
  | depth + 1, level => do
      if ← keeps level then
        return .kept
      else
        let first ← drawn keeps depth (level + 1)
        let second ← drawn keeps depth (level + 1)
        let third ← drawn keeps depth (level + 1)
        let fourth ← drawn keeps depth (level + 1)
        return .replaced first second third fourth

open Subdivision

/-- The recursion over the parts of an edge draws its decisions from words. -/
theorem walk_eq_drawn {P σ : Type} [WordSource σ] (cut : Cut P) (levels : Levels)
    (a b : P) (level depth : Nat) (hdepth : level + depth = levels.greatest) :
    (walk cut levels a b level : Attempt DrawError σ (List (Edge P))) = do
      let growth ← drawn (levels.asks Draw.oneIn) depth level
      return growth.edges cut a b level := by
  rw [Levels.asks_eq_keeps]
  induction depth generalizing level a b with
  | zero =>
      -- the answer at the greatest level is always that the edge is kept
      rw [walk_eq, drawn, bind_assoc]
      apply keeps_bind_congr (by omega)
      simp [edges]
  | succ depth ih =>
      have hnext : level + 1 + depth = levels.greatest := by omega
      rw [walk_eq, drawn, bind_assoc]
      congr 1
      funext keep
      cases keep with
      | true => simp [edges]
      | false => simp [ih _ _ _ hnext, edges_replaced]

end Growth

/-!
## Three sides
-/

/-- The decisions about the three sides of a triangle. -/
structure Decisions where
  ab : Growth
  bc : Growth
  ca : Growth
deriving DecidableEq, Repr

namespace Decisions

open Growth Subdivision

/-- The decisions of one boundary, side by side. -/
def drawn {m : Type -> Type} [Monad m] (levels : Levels)
    (oneIn : Int -> m Bool) : m Decisions := do
  let ab ← Growth.drawn (levels.asks oneIn) levels.greatest 0
  let bc ← Growth.drawn (levels.asks oneIn) levels.greatest 0
  let ca ← Growth.drawn (levels.asks oneIn) levels.greatest 0
  return { ab := ab, bc := bc, ca := ca }

def edges {P : Type} (cut : Cut P) (a b c : P) (d : Decisions) : List (Edge P) :=
  d.ab.edges cut a b 0 ++ d.bc.edges cut b c 0 ++ d.ca.edges cut c a 0

/-- A boundary is what its decisions make of the triangle. -/
theorem boundary_triangle_eq_drawn {P σ : Type} [WordSource σ] (cut : Cut P)
    (levels : Levels) (a b c : P) :
    (boundary cut levels [(a, b), (b, c), (c, a)] :
        Attempt DrawError σ (Array (Edge P))) = do
      let decisions ← drawn levels Draw.oneIn
      return (decisions.edges cut a b c).toArray := by
  have hwalk (p q : P) :
      (walk cut levels p q 0 : Attempt DrawError σ (List (Edge P))) = _ :=
    walk_eq_drawn cut levels p q 0 levels.greatest (Nat.zero_add _)
  rw [boundary_triangle_eq_walks, hwalk a b, hwalk b c, hwalk c a, drawn]
  simp [edges]

end Decisions

end SphereFixtures
