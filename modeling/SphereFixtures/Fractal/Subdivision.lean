import SphereFixtures.Random.Words

/-!
# Random subdivision of edges

An edge is either kept or replaced by four edges of the next level.  Below the
least level it is always replaced; from there on it is kept with equal chances
for all levels up to the greatest.  Pending edges wait on a stack, so that they
are visited in the order of the boundary.
-/

namespace SphereFixtures

/-!
## Edges
-/

structure Edge (P : Type) where
  start : P
  stop : P
  level : Nat
deriving DecidableEq, Repr

/-- The three inner points of the line that replaces an edge. -/
abbrev Cut (P : Type) := P -> P -> P × P × P

namespace Edge

variable {P : Type}

/-- The four edges that replace an edge, from its start to its stop. -/
def split (cut : Cut P) (e : Edge P) : List (Edge P) :=
  let (p, q, r) := cut e.start e.stop
  let next := e.level + 1
  [{ start := e.start, stop := p, level := next },
    { start := p, stop := q, level := next },
    { start := q, stop := r, level := next },
    { start := r, stop := e.stop, level := next }]

@[simp] theorem length_split (cut : Cut P) (e : Edge P) :
    (e.split cut).length = 4 := rfl

theorem level_of_mem_split {cut : Cut P} {e d : Edge P}
    (h : d ∈ e.split cut) : d.level = e.level + 1 := by
  simp only [split, List.mem_cons, List.not_mem_nil, or_false] at h
  rcases h with h | h | h | h <;> rw [h]

end Edge

/-!
## Levels
-/

structure Levels where
  least : Nat
  greatest : Nat
  least_le : least ≤ greatest
deriving DecidableEq, Repr

namespace Levels

/-- Both levels the same, so that no edge is kept before it. -/
def single (level : Nat) : Levels :=
  { least := level, greatest := level, least_le := Nat.le_refl level }

variable {σ : Type} [WordSource σ]

/-- An edge of a given level is kept once in how many times; none if it is
always replaced.  The chance grows with the level, which makes all levels
equally likely. -/
def odds? (levels : Levels) (level : Nat) : Option Int :=
  if levels.least ≤ level then some ((levels.greatest : Int) - level + 1)
  else none

def keeps (levels : Levels) (level : Nat) : Attempt DrawError σ Bool :=
  match levels.odds? level with
  | some n => Draw.oneIn n
  | none => return false

theorem keeps_run_of_odds_eq_none {levels : Levels} {level : Nat} (s : σ)
    (h : levels.odds? level = none) :
    (levels.keeps level).run.run s = (.ok false, s) := by
  rw [keeps, h]
  rfl

theorem keeps_run_of_odds_eq_some {levels : Levels} {level : Nat} {n : Int}
    (s : σ) (h : levels.odds? level = some n) :
    (levels.keeps level).run.run s = (Draw.oneIn n).run.run s := by
  rw [keeps, h]

/-- At the greatest level every edge is kept, so one that is replaced has a
smaller level. -/
theorem lt_greatest_of_keeps {levels : Levels} {level : Nat} {s s' : σ}
    (h : (levels.keeps level).run.run s = (.ok false, s')) :
    level < levels.greatest := by
  have hle := levels.least_le
  by_cases hl : levels.least ≤ level
  · have hodds :
        levels.odds? level = some ((levels.greatest : Int) - level + 1) := by
      rw [odds?, if_pos hl]
    rw [keeps_run_of_odds_eq_some s hodds, Draw.oneIn_run] at h
    by_cases hg : level < levels.greatest
    · exact hg
    · exfalso
      by_cases he : level = levels.greatest
      · have hone : (levels.greatest - level + 1 : Int) = 1 := by omega
        rw [hone] at h
        simp [Draw.checkBound, DrawError.maxBound, Draw.pair_run, Words.hit,
          Words.below, Nat.mod_one] at h
        cases h
      · have hpos : ¬ (0 : Int) < levels.greatest - level + 1 := by omega
        simp [Draw.checkBound, hpos] at h
        cases h
  · omega

end Levels

/-!
## The work stack
-/

/-- The edges that wait for their turn, the edges that were kept, and the
source of the decisions. -/
structure Work (P σ : Type) where
  pending : List (Edge P)
  kept : Array (Edge P)
  source : σ

/-- What becomes of the work when the top of the stack is looked at. -/
inductive Progress (P σ : Type) where
  | finished (kept : Array (Edge P)) (source : σ)
  | refused (error : DrawError) (source : σ)
  | more (work : Work P σ)

namespace Work

variable {P : Type} {σ : Type} [WordSource σ]

/-- Take the top of the stack: a kept edge joins the boundary, and a replaced
one gives way to its four parts. -/
def step (cut : Cut P) (levels : Levels) (work : Work P σ) : Progress P σ :=
  match work with
  | { pending := [], kept, source } => .finished kept source
  | { pending := e :: rest, kept, source } =>
      match (levels.keeps e.level).run.run source with
      | (.error error, source) => .refused error source
      | (.ok true, source) =>
          .more { pending := rest, kept := kept.push e, source := source }
      | (.ok false, source) =>
          .more { pending := e.split cut ++ rest, kept := kept, source := source }

/-- A bound on the number of edges that an edge may still yield. -/
def weight (levels : Levels) (e : Edge P) : Nat :=
  Nat.pow 5 (levels.greatest - e.level)

def totalWeight (levels : Levels) (pending : List (Edge P)) : Nat :=
  pending.foldr (fun e total => weight levels e + total) 0

theorem weight_pos (levels : Levels) (e : Edge P) : 0 < weight levels e :=
  Nat.pow_pos (by decide)

theorem totalWeight_cons (levels : Levels) (e : Edge P)
    (rest : List (Edge P)) :
    totalWeight levels (e :: rest) =
      weight levels e + totalWeight levels rest := rfl

theorem totalWeight_split_lt (levels : Levels) (cut : Cut P) (e : Edge P)
    (rest : List (Edge P)) (h : e.level < levels.greatest) :
    totalWeight levels (e.split cut ++ rest) <
      totalWeight levels (e :: rest) := by
  have hsucc :
      levels.greatest - e.level = levels.greatest - (e.level + 1) + 1 := by
    omega
  have hpos : 0 < Nat.pow 5 (levels.greatest - (e.level + 1)) :=
    Nat.pow_pos (by decide)
  have hfive (n : Nat) : Nat.pow 5 (n + 1) = Nat.pow 5 n * 5 := rfl
  simp only [Edge.split, List.cons_append, List.nil_append, totalWeight_cons,
    weight]
  rw [hsucc, hfive]
  omega

theorem totalWeight_step_lt {cut : Cut P} {levels : Levels}
    {work next : Work P σ} (h : work.step cut levels = .more next) :
    totalWeight levels next.pending < totalWeight levels work.pending := by
  rcases work with ⟨pending, kept, source⟩
  cases pending with
  | nil => simp [step] at h
  | cons e rest =>
      simp only [step] at h
      split at h
      · cases h
      · cases h
        have := weight_pos levels e
        have := totalWeight_cons levels e rest
        simp only
        omega
      · next heq =>
          cases h
          exact totalWeight_split_lt levels cut e rest
            (Levels.lt_greatest_of_keeps heq)

def run (cut : Cut P) (levels : Levels) (work : Work P σ) :
    Except DrawError (Array (Edge P)) × σ :=
  match _hstep : work.step cut levels with
  | .finished kept source => (.ok kept, source)
  | .refused error source => (.error error, source)
  | .more next => run cut levels next
termination_by totalWeight levels work.pending
decreasing_by exact totalWeight_step_lt _hstep

end Work

/-!
## Boundaries
-/

namespace Subdivision

variable {P : Type} {σ : Type} [WordSource σ]

/-- Append to a boundary the edges that one side is subdivided into. -/
def side (cut : Cut P) (levels : Levels) (kept : Array (Edge P))
    (start stop : P) : Attempt DrawError σ (Array (Edge P)) := fun source =>
  let whole : Edge P := { start := start, stop := stop, level := 0 }
  Work.run cut levels { pending := [whole], kept := kept, source := source }

def boundary (cut : Cut P) (levels : Levels) (sides : List (P × P)) :
    Attempt DrawError σ (Array (Edge P)) :=
  sides.foldlM (fun kept (start, stop) => side cut levels kept start stop) #[]

end Subdivision

end SphereFixtures
