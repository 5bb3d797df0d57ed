import SphereFixtures.Proofs.Fractal.Realization
import SphereFixtures.Proofs.Scalars

/-!
# Subdivided edges in the plane

With exact arithmetic the plane is that of the complex numbers.  All that an
edge grows into stays in the triangle of the edge and its first middle vertex:
the middle vertices of its parts lie on the other two sides of that triangle.
-/

namespace SphereFixtures

/-- The start and the end of every edge of a closed polygon. -/
def closedEdges {P : Type} (vertices : List P) : List (P × P) :=
  vertices.zip (vertices.rotate 1)

/-- On a closed path every edge stops where the one after it starts. -/
theorem Edge.map_stop_eq_rotate {P : Type} {edges : List (Edge P)} {a : P}
    (h : Path edges a a) :
    edges.map Edge.stop = (edges.map Edge.start).rotate 1 := by
  cases edges with
  | nil => rfl
  | cons e rest =>
      have hstop := map_stop_of_path h
      cases h.left
      have hrotate : ((e :: rest).map Edge.start).rotate 1 =
          rest.map Edge.start ++ [e.start] := by
        rw [List.map_cons, List.rotate_cons_succ, List.rotate_zero]
      rw [hrotate]
      exact (List.cons.inj hstop).right

/-- The polygon through the starts of a closed path has the edges of the path. -/
theorem closedEdges_map_start {P : Type} {edges : List (Edge P)} {a : P}
    (h : Edge.Path edges a a) :
    closedEdges (edges.map Edge.start) =
      edges.map fun e => (e.start, e.stop) := by
  rw [closedEdges, ← Edge.map_stop_eq_rotate h, List.zip_map']

/-- A point as a complex number. -/
def Vec2.toComplex (p : Vec2 ℝ) : ℂ := ⟨p.x, p.y⟩

namespace Plane

open Complex

/-!
## Inner points
-/

/-- The point at a fraction of the way from one point to another. -/
noncomputable def along (t : ℝ) (z w : ℂ) : ℂ :=
  z + t • (w - z)

/-- The middle vertex of a replaced edge. -/
noncomputable def apex (f : ℝ) (z w : ℂ) : ℂ :=
  (z + w) / 2 - f * I * (w - z)

/-- A third of a turn. -/
noncomputable def third : ℂ := ⟨-1 / 2, √3 / 2⟩

section

variable (e f : ℝ) (a b : Vec2 ℝ)

theorem toComplex_cut_near :
    (Snowflake.cut e f a b).1.toComplex = along e a.toComplex b.toComplex := by
  apply Complex.ext
  · simp [along, Vec2.toComplex]
    rfl
  · simp [along, Vec2.toComplex]
    rfl

theorem toComplex_cut_far :
    (Snowflake.cut e f a b).2.2.toComplex = along e b.toComplex a.toComplex := by
  have hfar : (Snowflake.cut e f a b).2.2.toComplex =
      b.toComplex - e • (b.toComplex - a.toComplex) := by
    apply Complex.ext <;> simp [Vec2.toComplex] <;> rfl
  rw [hfar, along, ← neg_sub b.toComplex a.toComplex, smul_neg, sub_eq_add_neg]

theorem toComplex_cut_apex :
    (Snowflake.cut e f a b).2.1.toComplex = apex f a.toComplex b.toComplex := by
  have hx : (Snowflake.cut e f a b).2.1.x =
      (0.5 : ℝ) * (a.x + b.x) - f * -(b.y - a.y) := rfl
  have hy : (Snowflake.cut e f a b).2.1.y =
      (0.5 : ℝ) * (a.y + b.y) - f * (b.x - a.x) := rfl
  apply Complex.ext
  · simp [apex, Vec2.toComplex, hx]
    ring
  · simp [apex, Vec2.toComplex, hy]
    ring

end

/-!
## The middle vertices of the parts
-/

section

variable {e f : ℝ} (z w : ℂ)

theorem apex_first : apex f z (along e z w) = along e z (apex f z w) := by
  simp only [apex, along, Complex.real_smul]
  ring

theorem apex_fourth : apex f (along e w z) w = along e w (apex f z w) := by
  simp only [apex, along, Complex.real_smul]
  ring

variable (hf : f ^ 2 = e - 1 / 4)

include hf

theorem ofReal_square : (f : ℂ) ^ 2 = e - 1 / 4 := by
  rw [← Complex.ofReal_pow, hf]
  push_cast
  rfl

theorem apex_second :
    apex f (along e z w) (apex f z w) = along (1 - e) z (apex f z w) := by
  have hsquare := ofReal_square hf
  simp only [apex, along, Complex.real_smul]
  push_cast
  linear_combination (z - w) * hsquare + f ^ 2 * (w - z) * I_sq

theorem apex_third :
    apex f (apex f z w) (along e w z) = along (1 - e) w (apex f z w) := by
  have hsquare := ofReal_square hf
  simp only [apex, along, Complex.real_smul]
  push_cast
  linear_combination (w - z) * hsquare - f ^ 2 * (w - z) * I_sq

end

/-!
## Convex regions
-/

/-- Whether a region holds an edge with its middle vertex. -/
structure Holds (S : Set ℂ) (f : ℝ) (z w : ℂ) : Prop where
  start : z ∈ S
  stop : w ∈ S
  middle : apex f z w ∈ S

theorem along_mem {S : Set ℂ} (hS : Convex ℝ S) {t : ℝ} (hnonneg : 0 ≤ t)
    (hle : t ≤ 1) {z w : ℂ} (hz : z ∈ S) (hw : w ∈ S) : along t z w ∈ S :=
  hS.add_smul_sub_mem hz hw ⟨hnonneg, hle⟩

section

variable {S : Set ℂ} (hS : Convex ℝ S) {e f : ℝ} (hnonneg : 0 ≤ e) (hle : e ≤ 1)
  {z w : ℂ}

include hS hnonneg hle

theorem holds_first (hz : z ∈ S) (hnear : along e z w ∈ S)
    (hmiddle : apex f z w ∈ S) : Holds S f z (along e z w) := by
  refine ⟨hz, hnear, ?_⟩
  rw [apex_first]
  exact along_mem hS hnonneg hle hz hmiddle

theorem holds_fourth (hw : w ∈ S) (hfar : along e w z ∈ S)
    (hmiddle : apex f z w ∈ S) : Holds S f (along e w z) w := by
  refine ⟨hfar, hw, ?_⟩
  rw [apex_fourth]
  exact along_mem hS hnonneg hle hw hmiddle

variable (hf : f ^ 2 = e - 1 / 4)

include hf

theorem holds_second (hz : z ∈ S) (hnear : along e z w ∈ S)
    (hmiddle : apex f z w ∈ S) : Holds S f (along e z w) (apex f z w) := by
  refine ⟨hnear, hmiddle, ?_⟩
  rw [apex_second z w hf]
  exact along_mem hS (by linarith) (by linarith) hz hmiddle

theorem holds_third (hw : w ∈ S) (hfar : along e w z ∈ S)
    (hmiddle : apex f z w ∈ S) : Holds S f (apex f z w) (along e w z) := by
  refine ⟨hmiddle, hfar, ?_⟩
  rw [apex_third z w hf]
  exact along_mem hS (by linarith) (by linarith) hw hmiddle

/-- A convex region that holds an edge with its middle vertex holds everything
that the edge grows into. -/
theorem segment_subset_of_holds {growth : Growth} {a b : Vec2 ℝ} {level : Nat}
    (h : Holds S f a.toComplex b.toComplex) {d : Edge (Vec2 ℝ)}
    (hd : d ∈ growth.edges (Snowflake.cut e f) a b level) :
    segment ℝ d.start.toComplex d.stop.toComplex ⊆ S := by
  induction growth generalizing a b level with
  | kept =>
      rw [List.mem_singleton.mp hd]
      exact hS.segment_subset h.start h.stop
  | replaced first second third fourth ih₁ ih₂ ih₃ ih₄ =>
      rcases h with ⟨ha, hb, hmiddle⟩
      have hnear := along_mem hS hnonneg hle ha hb
      have hfar := along_mem hS hnonneg hle hb ha
      rw [Growth.edges_replaced] at hd
      simp only [List.mem_append] at hd
      rcases hd with ((hd | hd) | hd) | hd
      · refine ih₁ ?_ hd
        rw [toComplex_cut_near]
        exact holds_first hS hnonneg hle ha hnear hmiddle
      · refine ih₂ ?_ hd
        rw [toComplex_cut_near, toComplex_cut_apex]
        exact holds_second hS hnonneg hle hf ha hnear hmiddle
      · refine ih₃ ?_ hd
        rw [toComplex_cut_far, toComplex_cut_apex]
        exact holds_third hS hnonneg hle hf hb hfar hmiddle
      · refine ih₄ ?_ hd
        rw [toComplex_cut_far]
        exact holds_fourth hS hnonneg hle hb hfar hmiddle

end

end Plane

end SphereFixtures
