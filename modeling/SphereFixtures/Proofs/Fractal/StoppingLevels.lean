import SphereFixtures.Proofs.Fractal.Coverage
import SphereFixtures.Proofs.Fractal.Decisions
import SphereFixtures.Proofs.Random.Chances

/-!
# The levels at which edges are kept

With ideal draws every level between the least and the greatest is equally likely
to be the one at which an edge is kept.  The chance of getting past a level and
the odds of the levels behind it cancel out one after another.
-/

namespace SphereFixtures

/-!
## Values of kept edges
-/

/-- The four parts of an edge. -/
inductive Part where
  | first
  | second
  | third
  | fourth
deriving DecidableEq, Repr

namespace Growth

variable {P : Type} (cut : Cut P)

/-- The edge that is kept on a path of parts.  The path says for every level which
part of an edge is followed. -/
def follow (path : Nat -> Part) : Growth -> P -> P -> Nat -> Edge P
  | .kept, a, b, level => { start := a, stop := b, level := level }
  | .replaced first second third fourth, a, b, level =>
      let (p, q, r) := cut a b
      match path level with
      | .first => first.follow path a p (level + 1)
      | .second => second.follow path p q (level + 1)
      | .third => third.follow path q r (level + 1)
      | .fourth => fourth.follow path r b (level + 1)

theorem follow_mem_edges (path : Nat -> Part) (growth : Growth) (a b : P)
    (level : Nat) :
    growth.follow cut path a b level ∈ growth.edges cut a b level := by
  induction growth generalizing a b level with
  | kept => exact List.mem_singleton_self _
  | replaced first second third fourth ih₁ ih₂ ih₃ ih₄ =>
      simp only [edges_replaced, List.mem_append, follow]
      split
      · exact Or.inl (Or.inl (Or.inl (ih₁ _ _ _)))
      · exact Or.inl (Or.inl (Or.inr (ih₂ _ _ _)))
      · exact Or.inl (Or.inr (ih₃ _ _ _))
      · exact Or.inr (ih₄ _ _ _)

/-- The values of all kept edges by their levels, added up with a share for each
part that leads to them. -/
def tally (share : Nat -> Part -> ℚ) (value : Nat -> ℚ) : Growth -> Nat -> ℚ
  | .kept, level => value level
  | .replaced first second third fourth, level =>
      share level .first * first.tally share value (level + 1) +
        share level .second * second.tally share value (level + 1) +
        share level .third * third.tally share value (level + 1) +
        share level .fourth * fourth.tally share value (level + 1)

/-- The shares of the parts of one path. -/
def onPath (path : Nat -> Part) (level : Nat) (part : Part) : ℚ :=
  if part = path level then 1 else 0

/-- Equal shares of all parts. -/
def everywhere (_level : Nat) (_part : Part) : ℚ := 1

/-- What the shares of the four parts of an edge add up to. -/
def SharesAddTo (ratio : ℚ) (share : Nat -> Part -> ℚ) : Prop :=
  forall level,
    share level .first + share level .second + share level .third +
      share level .fourth = ratio

theorem onPath_shares (path : Nat -> Part) : SharesAddTo 1 (onPath path) := by
  intro level
  simp only [onPath]
  generalize path level = part
  cases part <;> simp

theorem everywhere_shares : SharesAddTo 4 everywhere := by
  intro level
  norm_num [everywhere]

theorem tally_onPath (path : Nat -> Part) (value : Nat -> ℚ) (growth : Growth)
    (a b : P) (level : Nat) :
    growth.tally (onPath path) value level =
      value (growth.follow cut path a b level).level := by
  induction growth generalizing a b level with
  | kept => rfl
  | replaced first second third fourth ih₁ ih₂ ih₃ ih₄ =>
      simp only [tally, follow, onPath, ih₁ a (cut a b).1,
        ih₂ (cut a b).1 (cut a b).2.1, ih₃ (cut a b).2.1 (cut a b).2.2,
        ih₄ (cut a b).2.2 b]
      generalize path level = part
      cases part <;> simp

theorem tally_everywhere (value : Nat -> ℚ) (growth : Growth) (a b : P) (level : Nat) :
    growth.tally everywhere value level =
      ((growth.edges cut a b level).map fun e => value e.level).sum := by
  induction growth generalizing a b level with
  | kept => simp [tally, edges]
  | replaced first second third fourth ih₁ ih₂ ih₃ ih₄ =>
      simp only [tally, everywhere, edges_replaced, List.map_append,
        List.sum_append, one_mul]
      rw [ih₁ a (cut a b).1, ih₂ (cut a b).1 (cut a b).2.1,
        ih₃ (cut a b).2.1 (cut a b).2.2, ih₄ (cut a b).2.2 b]

end Growth

/-!
## Ideal decisions
-/

namespace Levels

open Chances

variable (levels : Levels)

theorem asks_of_least_le (oneIn : Int -> Chances Bool) {level : Nat}
    (h : levels.least ≤ level) :
    levels.asks oneIn level = oneIn ((levels.greatest : Int) - level + 1) := by
  rw [asks, odds?, if_pos h]

theorem asks_of_lt_least (oneIn : Int -> Chances Bool) {level : Nat}
    (h : level < levels.least) : levels.asks oneIn level = pure false := by
  rw [asks, odds?, if_neg (Nat.not_le.mpr h)]

theorem balanced_asks {level : Nat} (h : level ≤ levels.greatest) :
    (levels.asks oneIn level).Balanced := by
  by_cases hleast : levels.least ≤ level
  · rw [levels.asks_of_least_le oneIn hleast]
    exact balanced_oneIn (by omega)
  · rw [levels.asks_of_lt_least oneIn (Nat.not_le.mp hleast)]
    exact balanced_pure false

/-- At the greatest level the answer is certain. -/
theorem chance_asks_greatest :
    (levels.asks oneIn levels.greatest).chance (· = true) = 1 := by
  rw [levels.asks_of_least_le oneIn levels.least_le, chance, mean_oneIn]
  norm_num

end Levels

namespace Growth

open Chances

theorem balanced_drawn {levels : Levels} (depth level : Nat)
    (hdepth : level + depth = levels.greatest) :
    (drawn (levels.asks oneIn) depth level).Balanced := by
  induction depth generalizing level with
  | zero => exact (levels.balanced_asks (by omega)).bind fun _ => balanced_pure _
  | succ depth ih =>
      have hnext := ih (level + 1) (by omega)
      apply (levels.balanced_asks (by omega)).bind
      intro keep
      cases keep with
      | true => exact balanced_pure _
      | false =>
          exact hnext.bind fun _ => hnext.bind fun _ => hnext.bind fun _ =>
            hnext.bind fun _ => balanced_pure _

variable {share : Nat -> Part -> ℚ} {ratio : ℚ} (value : Nat -> ℚ)
  (hshare : SharesAddTo ratio share)

include hshare

/-- The mean over the parts of an edge is that over one of them, as often as the
shares say. -/
theorem mean_tally_drawn_succ {keeps : Nat -> Chances Bool} {depth level : Nat}
    (hnext : (drawn keeps depth (level + 1)).Balanced) :
    (drawn keeps (depth + 1) level).mean (fun g => g.tally share value level) =
      (keeps level).mean fun keep =>
        if keep then value level
        else ratio * (drawn keeps depth (level + 1)).mean
          fun g => g.tally share value (level + 1) := by
  rw [drawn, mean_bind]
  congr 1
  funext keep
  cases keep with
  | true => exact mean_pure _ _
  | false =>
      simp only [Bool.false_eq_true, if_false, mean_bind, mean_pure, tally,
        mean_add, mean_mul_left, hnext.mean_const]
      rw [← hshare level]
      ring

end Growth

namespace Levels

/-- The number of levels at which an edge may be kept. -/
def count (levels : Levels) : ℚ :=
  levels.greatest - levels.least + 1

theorem count_pos (levels : Levels) : 0 < levels.count := by
  have hle : (levels.least : ℚ) ≤ levels.greatest := by
    exact_mod_cast levels.least_le
  rw [count]
  linarith

/-- The values of all levels from some level on, each with the number of parts of
that level. -/
def total (levels : Levels) (ratio : ℚ) (value : Nat -> ℚ) (level : Nat) : ℚ :=
  ∑ i ∈ Finset.Icc (max levels.least level) levels.greatest,
    ratio ^ (i - level) * value i

variable (levels : Levels) (ratio : ℚ) (value : Nat -> ℚ)

theorem total_greatest : levels.total ratio value levels.greatest =
    value levels.greatest := by
  rw [total, Nat.max_eq_right levels.least_le, Finset.Icc_self,
    Finset.sum_singleton, Nat.sub_self, pow_zero, one_mul]

theorem mul_total_succ (level : Nat) :
    ratio * levels.total ratio value (level + 1) =
      ∑ i ∈ Finset.Icc (max levels.least (level + 1)) levels.greatest,
        ratio ^ (i - level) * value i := by
  rw [total, Finset.mul_sum]
  apply Finset.sum_congr rfl
  intro i hi
  have hle : level + 1 ≤ i :=
    (Nat.le_max_right _ _).trans (Finset.mem_Icc.mp hi).left
  have hpow : i - level = i - (level + 1) + 1 := by omega
  rw [hpow, pow_succ']
  ring

theorem total_of_lt_least {level : Nat} (h : level < levels.least) :
    levels.total ratio value level = ratio * levels.total ratio value (level + 1) := by
  rw [mul_total_succ, total, Nat.max_eq_left h.le, Nat.max_eq_left h]

theorem total_of_least_le {level : Nat} (h : levels.least ≤ level)
    (hlt : level < levels.greatest) :
    levels.total ratio value level =
      value level + ratio * levels.total ratio value (level + 1) := by
  rw [mul_total_succ, total, Nat.max_eq_right h, Nat.max_eq_right (by omega),
    ← Finset.add_sum_Ioc_eq_sum_Icc hlt.le, Nat.sub_self, pow_zero, one_mul,
    Finset.Icc_add_one_left_eq_Ioc]

/-- Of a single level only its own value is left, if it is one of the levels. -/
theorem total_single (i : Nat) :
    levels.total ratio (fun level => if level = i then 1 else 0) 0 =
      if levels.least ≤ i ∧ i ≤ levels.greatest then ratio ^ i else 0 := by
  rw [total, Nat.max_zero]
  simp [Finset.sum_ite_eq']

end Levels

namespace Growth

open Chances Levels

variable {share : Nat -> Part -> ℚ} {ratio : ℚ} (value : Nat -> ℚ)
  (hshare : SharesAddTo ratio share)

include hshare

/-- As many times as there are levels left to be kept at, the mean of the kept edges
is the sum over these levels. -/
theorem mean_tally_drawn {levels : Levels} (depth level : Nat)
    (hdepth : level + depth = levels.greatest) :
    ((levels.greatest : ℚ) - (max levels.least level : Nat) + 1) *
        (drawn (levels.asks oneIn) depth level).mean
          (fun g => g.tally share value level) =
      levels.total ratio value level := by
  induction depth generalizing level with
  | zero =>
      have hlevel : level = levels.greatest := by omega
      have hmean := (levels.balanced_asks hlevel.le).mean_const (value level)
      rw [drawn, mean_bind]
      simp only [mean_pure, tally, hmean]
      rw [hlevel, total_greatest, Nat.max_eq_right levels.least_le]
      ring
  | succ depth ih =>
      have hnext : level + 1 + depth = levels.greatest := by omega
      have hrest := ih (level + 1) hnext
      rw [mean_tally_drawn_succ value hshare (balanced_drawn depth _ hnext)]
      by_cases hleast : levels.least ≤ level
      · -- one level more is left here than behind, so the chance to get past this
        -- level cancels against the factor of the rest
        rw [Nat.max_eq_right (by omega)] at hrest
        push_cast at hrest
        have hpos : (0 : ℚ) < levels.greatest - level + 1 := by
          have hlt : (level : ℚ) < levels.greatest := by
            exact_mod_cast (by omega : level < levels.greatest)
          linarith
        rw [levels.asks_of_least_le oneIn hleast, mean_oneIn,
          total_of_least_le levels ratio value hleast (by omega), ← hrest,
          Nat.max_eq_right hleast]
        push_cast
        simp only [if_true]
        field_simp
        ring
      · -- below the least level nothing is drawn, and as many levels are left
        have hlt : level < levels.least := Nat.not_le.mp hleast
        rw [Nat.max_eq_left hlt] at hrest
        rw [levels.asks_of_lt_least oneIn hlt, mean_pure,
          total_of_lt_least levels ratio value hlt, ← hrest,
          Nat.max_eq_left hlt.le]
        simp only [Bool.false_eq_true, if_false]
        ring

end Growth

namespace Edge

variable {P : Type}

/-- The edges of one level. -/
def ofLevel (edges : List (Edge P)) (level : Nat) : List (Edge P) :=
  edges.filter fun e => e.level = level

theorem sum_map_level (edges : List (Edge P)) (level : Nat) :
    (edges.map fun e => if e.level = level then (1 : ℚ) else 0).sum =
      (ofLevel edges level).length := by
  induction edges with
  | nil => rfl
  | cons e rest ih =>
      rw [List.map_cons, List.sum_cons, ih]
      by_cases h : e.level = level
      · simp [ofLevel, h, add_comm]
      · simp [ofLevel, h]

theorem coverage_ofLevel (greatest : Nat) (edges : List (Edge P)) (level : Nat) :
    coverage greatest (ofLevel edges level) =
      (ofLevel edges level).length * 4 ^ (greatest - level) := by
  rw [coverage, List.sum_eq_card_nsmul _ (4 ^ (greatest - level)), List.length_map,
    smul_eq_mul]
  intro part hpart
  rcases List.mem_map.mp hpart with ⟨e, he, rfl⟩
  have hlevel : e.level = level := by
    simpa using (List.mem_filter.mp he).right
  rw [hlevel]

end Edge

/-!
## Ideal boundaries
-/

namespace Decisions

open Chances Edge Growth Levels

variable {P : Type} (cut : Cut P) (a b c : P)

/-- The three sides of a triangle. -/
inductive Side where
  | ab
  | bc
  | ca
deriving DecidableEq, Repr

def side (d : Decisions) : Side -> Growth
  | .ab => d.ab
  | .bc => d.bc
  | .ca => d.ca

/-- The edge that is kept on a path from one of the sides. -/
def follow (side : Side) (path : Nat -> Part) (d : Decisions) : Edge P :=
  match side with
  | .ab => d.ab.follow cut path a b 0
  | .bc => d.bc.follow cut path b c 0
  | .ca => d.ca.follow cut path c a 0

theorem follow_mem_edges (side : Side) (path : Nat -> Part) (d : Decisions) :
    d.follow cut a b c side path ∈ d.edges cut a b c := by
  rw [edges]
  simp only [List.mem_append]
  cases side with
  | ab => exact Or.inl (Or.inl (d.ab.follow_mem_edges cut path a b 0))
  | bc => exact Or.inl (Or.inr (d.bc.follow_mem_edges cut path b c 0))
  | ca => exact Or.inr (d.ca.follow_mem_edges cut path c a 0)

theorem tally_side_onPath (side : Side) (path : Nat -> Part) (value : Nat -> ℚ)
    (d : Decisions) :
    (d.side side).tally (onPath path) value 0 =
      value (d.follow cut a b c side path).level := by
  cases side with
  | ab => exact tally_onPath cut path value d.ab a b 0
  | bc => exact tally_onPath cut path value d.bc b c 0
  | ca => exact tally_onPath cut path value d.ca c a 0

theorem sum_map_edges (value : Nat -> ℚ) (d : Decisions) :
    ((d.edges cut a b c).map fun e => value e.level).sum =
      (d.side .ab).tally everywhere value 0 + (d.side .bc).tally everywhere value 0 +
        (d.side .ca).tally everywhere value 0 := by
  rw [edges, List.map_append, List.map_append, List.sum_append, List.sum_append,
    ← tally_everywhere cut, ← tally_everywhere cut, ← tally_everywhere cut]
  rfl

variable (levels : Levels)

theorem balanced_drawn_side :
    (Growth.drawn (levels.asks oneIn) levels.greatest 0).Balanced :=
  Growth.balanced_drawn _ _ (Nat.zero_add _)

theorem balanced_drawn : (drawn levels oneIn).Balanced := by
  have hside := balanced_drawn_side levels
  exact hside.bind fun _ => hside.bind fun _ => hside.bind fun _ => balanced_pure _

/-- The three sides are drawn alike and independently. -/
theorem mean_side (side : Side) (value : Growth -> ℚ) :
    ((drawn levels oneIn).mean fun d => value (d.side side)) =
      (Growth.drawn (levels.asks oneIn) levels.greatest 0).mean value := by
  have hconst := (balanced_drawn_side levels).mean_const
  rw [drawn]
  simp only [mean_bind, mean_pure]
  cases side with
  | ab => simp only [Decisions.side, hconst]
  | bc => simp only [Decisions.side, hconst]
  | ca => simp only [Decisions.side, hconst]

/-- The value of a single level, with the number of its edges divided by that of the
levels. -/
theorem mean_tally_side {share : Nat -> Part -> ℚ} {ratio : ℚ}
    (hshare : SharesAddTo ratio share) (side : Side) (i : Nat) :
    ((drawn levels oneIn).mean fun d =>
        (d.side side).tally share (fun level => if level = i then 1 else 0) 0) =
      if levels.least ≤ i ∧ i ≤ levels.greatest then ratio ^ i / levels.count
      else 0 := by
  have hmean := mean_tally_drawn (fun level => if level = i then 1 else 0) hshare
    levels.greatest 0 (Nat.zero_add _)
  rw [total_single, Nat.max_zero] at hmean
  rw [mean_side levels side fun g =>
    g.tally share (fun level => if level = i then 1 else 0) 0]
  apply mul_left_cancel₀ levels.count_pos.ne'
  apply Eq.trans hmean
  split
  · rw [mul_div_cancel₀ _ levels.count_pos.ne']
  · rw [mul_zero]

/-- On every path each level is as likely as any other one to be the last. -/
theorem chance_follow (side : Side) (path : Nat -> Part) (i : Nat) :
    ((drawn levels oneIn).chance fun d =>
        (d.follow cut a b c side path).level = i) =
      if levels.least ≤ i ∧ i ≤ levels.greatest then 1 / levels.count else 0 := by
  have hmean := mean_tally_side levels (onPath_shares path) side i
  rw [one_pow] at hmean
  rw [chance, ← hmean]
  congr 1
  funext d
  exact (tally_side_onPath cut a b c side path (fun level => if level = i then 1 else 0)
    d).symm

theorem mean_length_ofLevel (i : Nat) :
    ((drawn levels oneIn).mean fun d =>
        (ofLevel (d.edges cut a b c) i).length) =
      if levels.least ≤ i ∧ i ≤ levels.greatest then 3 * 4 ^ i / levels.count
      else 0 := by
  simp only [← sum_map_level, sum_map_edges cut a b c
    (fun level => if level = i then 1 else 0), mean_add,
    mean_tally_side levels everywhere_shares]
  split
  · ring
  · rw [add_zero, add_zero]

theorem mean_coverage_ofLevel (i : Nat) :
    ((drawn levels oneIn).mean fun d =>
        coverage levels.greatest (ofLevel (d.edges cut a b c) i)) =
      if levels.least ≤ i ∧ i ≤ levels.greatest then
        3 * 4 ^ levels.greatest / levels.count
      else 0 := by
  have hcoverage (d : Decisions) :
      (coverage levels.greatest (ofLevel (d.edges cut a b c) i) : ℚ) =
        4 ^ (levels.greatest - i) * (ofLevel (d.edges cut a b c) i).length := by
    rw [coverage_ofLevel]
    push_cast
    ring
  simp only [hcoverage, mean_mul_left, mean_length_ofLevel]
  split
  · next hlevel =>
      have hpow : (4 : ℚ) ^ levels.greatest =
          4 ^ (levels.greatest - i) * 4 ^ i := by
        rw [← pow_add, Nat.sub_add_cancel hlevel.right]
      rw [hpow]
      ring
  · rw [mul_zero]

end Decisions

namespace Settings

open Snowflake Edge Chances

/-- A boundary is what its decisions make of the triangle, and each decision is
drawn with the odds of its level.  If these draws are ideal, every path ends at
each of the levels with the same chance, there are on the average as many edges of
a level as its share of an even boundary, and so the levels have equal shares in
what is covered of the three sides. -/
theorem levels_equally_likely {α σ : Type} [Scalar α] [WordSource σ]
    (s : Settings α) :
    (s.boundary : Attempt GrowthError σ (Array (Edge (Vec2 α)))) =
        (match s.levels? with
        | none => throw .noMaxLevel
        | some levels => ExceptT.adapt .draw (do
            let decisions ← Decisions.drawn levels Draw.oneIn
            return (decisions.edges s.cut cornerA cornerB cornerC).toArray)) ∧
      forall (levels : Levels) (i : Nat),
        let k : ℚ := (levels.greatest : ℚ) - levels.least + 1
        let eligible := levels.least ≤ i ∧ i ≤ levels.greatest
        let drawn := Decisions.drawn levels Chances.oneIn
        let edges (d : Decisions) := d.edges s.cut cornerA cornerB cornerC
        drawn.Balanced ∧
          (levels.asks Chances.oneIn levels.greatest).chance (· = true) = 1 ∧
          (forall (side : Decisions.Side) (path : Nat -> Part),
            let last (d : Decisions) :=
              d.follow s.cut cornerA cornerB cornerC side path
            (forall d, last d ∈ edges d) ∧
              (drawn.chance fun d => (last d).level = i) =
                if eligible then 1 / k else 0) ∧
          (drawn.mean fun d => (ofLevel (edges d) i).length) =
            (if eligible then 3 * 4 ^ i / k else 0) ∧
          (drawn.mean fun d => coverage levels.greatest (ofLevel (edges d) i)) =
            if eligible then 3 * 4 ^ levels.greatest / k else 0 := by
  constructor
  · rw [boundary]
    cases s.levels? with
    | none => rfl
    | some levels =>
        exact congrArg (ExceptT.adapt GrowthError.draw)
          (Decisions.boundary_triangle_eq_drawn s.cut levels _ _ _)
  · intro levels i k eligible drawn edges
    refine ⟨Decisions.balanced_drawn levels, levels.chance_asks_greatest, ?_, ?_, ?_⟩
    · intro side path last
      exact ⟨Decisions.follow_mem_edges _ _ _ _ side path,
        Decisions.chance_follow _ _ _ _ levels side path i⟩
    · exact Decisions.mean_length_ofLevel _ _ _ _ levels i
    · exact Decisions.mean_coverage_ofLevel _ _ _ _ levels i

end Settings

end SphereFixtures
