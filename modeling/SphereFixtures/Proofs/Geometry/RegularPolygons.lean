import SphereFixtures.Proofs.Fractal.Plane
import SphereFixtures.Proofs.Geometry.AxisFrames
import SphereFixtures.Geometry.Polygon

/-!
# Regular polygons

The angles of a polygon divide a turn evenly, and the one after the last is the first
one, a full turn lower.  So every vertex sees the next one in the same way, the last
one the first: their product depends on the step alone, and so does the turn around
the center.
-/

namespace SphereFixtures

theorem length_closedEdges {P : Type} (vertices : List P) :
    (closedEdges vertices).length = vertices.length := by
  rw [closedEdges, List.length_zip, List.length_rotate, Nat.min_self]

/-- The edges of a closed polygon whose vertices are counted. -/
theorem closedEdges_map_range {P : Type} (f : Nat -> P) (n : Nat) :
    closedEdges ((List.range n).map f) =
      (List.range n).map fun i => (f i, f ((i + 1) % n)) := by
  apply List.ext_getElem
  · rw [length_closedEdges, List.length_map, List.length_map]
  · intro i hi _
    simp only [closedEdges, List.getElem_zip, List.getElem_rotate, List.getElem_map,
      List.getElem_range, List.length_map, List.length_range]

theorem exists_of_mem_closedEdges {P : Type} {f : Nat -> P} {n : Nat} {p q : P}
    (h : (p, q) ∈ closedEdges ((List.range n).map f)) :
    exists i, i < n ∧ p = f i ∧ q = f ((i + 1) % n) := by
  rw [closedEdges_map_range] at h
  rcases List.mem_map.mp h with ⟨i, hi, heq⟩
  cases heq
  exact ⟨i, List.mem_range.mp hi, rfl, rfl⟩

namespace Polygon

open Vec3

/-!
## Angles
-/

/-- The angle of a vertex. -/
def turnAngle {α : Type} [Scalar α] (count i : Nat) : α :=
  (i : α) * (2.0 * Scalar.pi / (count : α))

theorem turnAngles_eq {α : Type} [Scalar α] (count : Nat) :
    turnAngles count = (List.range count).map (turnAngle count : Nat -> α) := rfl

theorem turnAngle_eq (count i : Nat) :
    turnAngle count i = (i : ℝ) * (2 * Real.pi / count) := by
  have htwo : (2.0 : ℝ) = 2 := by norm_num
  rw [turnAngle, htwo]
  rfl

section

variable {count i j : Nat}

theorem turnAngle_nonneg : (0 : ℝ) ≤ turnAngle count i := by
  rw [turnAngle_eq]
  positivity

theorem turnAngle_lt (hi : i < count) : turnAngle count i < 2 * Real.pi := by
  have hlt : (i : ℝ) < count := by exact_mod_cast hi
  have hcount : (0 : ℝ) < count := (Nat.cast_nonneg i).trans_lt hlt
  rw [turnAngle_eq, mul_div_left_comm, mul_lt_iff_lt_one_right Real.two_pi_pos,
    div_lt_one hcount]
  exact hlt

theorem turnAngle_succ :
    turnAngle count (i + 1) = turnAngle count i + 2 * Real.pi / count := by
  rw [turnAngle_eq, turnAngle_eq]
  push_cast
  ring

/-- Behind the last vertex comes the first one, a full turn lower. -/
theorem turnAngle_next (hi : i < count) :
    turnAngle count ((i + 1) % count) = turnAngle count i + 2 * Real.pi / count ∨
      turnAngle count ((i + 1) % count) =
        turnAngle count i + 2 * Real.pi / count - 2 * Real.pi := by
  rw [← turnAngle_succ]
  rcases Nat.lt_or_eq_of_le (Nat.succ_le_of_lt hi) with hlt | rfl
  · rw [Nat.mod_eq_of_lt hlt]
    exact Or.inl rfl
  · have hcount : ((i + 1 : Nat) : ℝ) ≠ 0 := by positivity
    rw [Nat.mod_self]
    refine Or.inr ?_
    rw [turnAngle_eq, turnAngle_eq, mul_div_cancel₀ _ hcount, Nat.cast_zero, zero_mul, sub_self]

theorem cos_turnAngle_next_sub (hi : i < count) (theta : ℝ) :
    Real.cos (turnAngle count ((i + 1) % count) - theta) =
      Real.cos (turnAngle count i + 2 * Real.pi / count - theta) := by
  rcases turnAngle_next hi with h | h
  · rw [h]
  · rw [h, sub_right_comm, Real.cos_sub_two_pi]

theorem sin_turnAngle_next_sub (hi : i < count) (theta : ℝ) :
    Real.sin (turnAngle count ((i + 1) % count) - theta) =
      Real.sin (turnAngle count i + 2 * Real.pi / count - theta) := by
  rcases turnAngle_next hi with h | h
  · rw [h]
  · rw [h, sub_right_comm, Real.sin_sub_two_pi]

/-- Different vertices are seen in different directions. -/
theorem eq_of_cos_turnAngle_sub_eq_one (hi : i < count) (hj : j < count)
    (h : Real.cos (turnAngle count j - turnAngle count i) = 1) : j = i := by
  have hlow : -(2 * Real.pi) < turnAngle count j - turnAngle count i := by
    linarith [turnAngle_lt hi, @turnAngle_nonneg count j]
  have hhigh : turnAngle count j - turnAngle count i < 2 * Real.pi := by
    linarith [turnAngle_lt hj, @turnAngle_nonneg count i]
  have hcount : (count : ℝ) ≠ 0 := by
    exact_mod_cast (Nat.zero_le i).trans_lt hi |>.ne'
  have hsame := sub_eq_zero.mp ((Real.cos_eq_one_iff_of_lt_of_lt hlow hhigh).mp h)
  rw [turnAngle_eq, turnAngle_eq] at hsame
  exact_mod_cast mul_right_cancel₀ (div_ne_zero Real.two_pi_pos.ne' hcount) hsame

end

/-!
## Points on a circle
-/

theorem dot_onCircle (radius height theta theta' : ℝ) :
    (onCircle radius height theta).dot (onCircle radius height theta') =
      radius ^ 2 * Real.cos (theta' - theta) + height ^ 2 := by
  rw [Real.cos_sub, dot_eq]
  show radius * Real.cos theta * (radius * Real.cos theta') +
    radius * Real.sin theta * (radius * Real.sin theta') + height * height = _
  ring

/-- The turn around the third axis from one point of a circle to another one. -/
theorem det_onCircle (radius height theta theta' : ℝ) :
    ({ x := { x := 0, y := 0, z := 1 }
       y := onCircle radius height theta
       z := onCircle radius height theta' } : Frame ℝ).toMatrix.det =
      radius ^ 2 * Real.sin (theta' - theta) := by
  rw [Frame.det_toMatrix, Real.sin_sub, dot_eq]
  show 0 * _ + 0 * _ + 1 * (radius * Real.cos theta * (radius * Real.sin theta') -
    radius * Real.sin theta * (radius * Real.cos theta')) = _
  ring

/-!
## Polygons around a center
-/

section

variable {center : Vec3 ℝ} (hcenter : center.norm = 1) {radius : ℝ} {count : Nat}

/-- A vertex before it is scaled. -/
noncomputable def vertexAt (center : Vec3 ℝ) (radius theta : ℝ) : Vec3 ℝ :=
  (Frame.ofAxis center).toGlobal (onCircle (Real.sin radius) (Real.cos radius) theta)

include hcenter

theorem norm_vertexAt (theta : ℝ) : (vertexAt center radius theta).norm = 1 := by
  rw [vertexAt, (Frame.rightHanded_ofAxis hcenter).norm_toGlobal, norm_eq_one_iff,
    dot_onCircle, sub_self, Real.cos_zero, mul_one, Real.sin_sq_add_cos_sq]

/-- The vertices have length one before they are scaled. -/
theorem regularVertices_eq :
    regularVertices center radius count =
      (List.range count).map fun i => vertexAt center radius (turnAngle count i) := by
  have hscaled (theta : ℝ) :
      (vertexAt center radius theta).divBy (vertexAt center radius theta).norm =
        vertexAt center radius theta := by
    rw [norm_vertexAt hcenter]
    simp only [divBy_eq, div_one]
  show (turnAngles count).map (fun theta =>
    (vertexAt center radius theta).divBy (vertexAt center radius theta).norm) = _
  simp only [hscaled, turnAngles_eq, List.map_map]
  rfl

theorem dot_vertexAt (theta theta' : ℝ) :
    (vertexAt center radius theta).dot (vertexAt center radius theta') =
      Real.sin radius ^ 2 * Real.cos (theta' - theta) + Real.cos radius ^ 2 := by
  rw [vertexAt, vertexAt, (Frame.rightHanded_ofAxis hcenter).dot_toGlobal_toGlobal,
    dot_onCircle]

theorem angleTo_vertexAt (hnonneg : 0 ≤ radius) (hle : radius ≤ Real.pi) (theta : ℝ) :
    center.angleTo (vertexAt center radius theta) = radius := by
  have hcosine : center.dot (vertexAt center radius theta) = Real.cos radius :=
    (Frame.rightHanded_ofAxis hcenter).dot_z_toGlobal _
  rw [angleTo_eq_arccos _ _ hcenter (norm_vertexAt hcenter theta), hcosine,
    Real.arccos_cos hnonneg hle]

theorem det_vertexAt (theta theta' : ℝ) :
    ({ x := center
       y := vertexAt center radius theta
       z := vertexAt center radius theta' } : Frame ℝ).toMatrix.det =
      Real.sin radius ^ 2 * Real.sin (theta' - theta) := by
  have hframe := Frame.rightHanded_ofAxis hcenter
  have hthird : (Frame.ofAxis center).toGlobal { x := 0, y := 0, z := 1 } = center := by
    ext <;> simp [Frame.toGlobal, dot_eq] <;> rfl
  have hplaced := hframe.det_toGlobal
    { x := { x := 0, y := 0, z := 1 }
      y := onCircle (Real.sin radius) (Real.cos radius) theta
      z := onCircle (Real.sin radius) (Real.cos radius) theta' }
  rw [hthird, det_onCircle] at hplaced
  exact hplaced

/-- Off the center and its opposite, different angles have different vertices. -/
theorem eq_of_vertexAt_eq (hsine : 0 < Real.sin radius) {i j : Nat} (hi : i < count)
    (hj : j < count)
    (h : vertexAt center radius (turnAngle count i) =
      vertexAt center radius (turnAngle count j)) : i = j := by
  have hproduct : (vertexAt center radius (turnAngle count j)).dot
      (vertexAt center radius (turnAngle count i)) = 1 := by
    rw [h, ← norm_eq_one_iff]
    exact norm_vertexAt hcenter _
  rw [dot_vertexAt hcenter] at hproduct
  apply eq_of_cos_turnAngle_sub_eq_one hj hi
  apply mul_left_cancel₀ (pow_pos hsine 2).ne'
  linarith [Real.sin_sq_add_cos_sq radius]

end

/-- A regular polygon has as many vertices as it is asked for.  They are vectors of
length one that the center sees at the radius, and whatever the radius is, the products
of consecutive vertices are the same all around.  Unless all vertices are the center or
its opposite, they differ from each other, and every edge, the closing one included,
turns counter-clockwise around the center. -/
theorem regular_polygons_are_regular {center : Vec3 ℝ} (hcenter : center.norm = 1)
    {radius : ℝ} (hnonneg : 0 ≤ radius) (hle : radius ≤ Real.pi) {count : Int}
    (hcount : 3 ≤ count) :
    exists points, regular center radius count = .ok points ∧
      (points.length : Int) = count ∧
      (forall p, p ∈ points -> p.norm = 1 ∧ center.angleTo p = radius) ∧
      (closedEdges points).length = points.length ∧
      (forall p q, (p, q) ∈ closedEdges points ->
        p.dot q =
          Real.sin radius ^ 2 * Real.cos (2 * Real.pi / count) + Real.cos radius ^ 2) ∧
      (0 < radius -> radius < Real.pi ->
        points.Nodup ∧ forall p q, (p, q) ∈ closedEdges points ->
          0 < ({ x := center, y := p, z := q } : Frame ℝ).toMatrix.det) := by
  rcases Int.eq_ofNat_of_zero_le ((by decide : (0 : Int) ≤ 3).trans hcount) with ⟨n, rfl⟩
  have hthree : 3 ≤ n := by exact_mod_cast hcount
  have hmade : regular center radius n = .ok (regularVertices center radius n) :=
    if_neg (not_lt.mpr hcount)
  refine ⟨_, hmade, ?_, ?_, length_closedEdges _, ?_, ?_⟩
  · rw [regularVertices_eq hcenter, List.length_map, List.length_range]
  · intro p hp
    rw [regularVertices_eq hcenter] at hp
    rcases List.mem_map.mp hp with ⟨i, _, rfl⟩
    exact ⟨norm_vertexAt hcenter _, angleTo_vertexAt hcenter hnonneg hle _⟩
  · intro p q h
    rw [regularVertices_eq hcenter] at h
    rcases exists_of_mem_closedEdges h with ⟨i, hi, rfl, rfl⟩
    rw [dot_vertexAt hcenter, cos_turnAngle_next_sub hi, add_sub_cancel_left,
      Int.cast_natCast]
  · intro hpos hlt
    have hsine := Real.sin_pos_of_pos_of_lt_pi hpos hlt
    have hstep : 0 < Real.sin (2 * Real.pi / n) := by
      have hn : (3 : ℝ) ≤ n := by exact_mod_cast hthree
      apply Real.sin_pos_of_pos_of_lt_pi (by positivity)
      rw [div_lt_iff₀ (by positivity)]
      nlinarith [Real.pi_pos]
    rw [regularVertices_eq hcenter]
    constructor
    · apply List.nodup_range.map_on
      intro i hi j hj h
      exact eq_of_vertexAt_eq hcenter hsine (List.mem_range.mp hi) (List.mem_range.mp hj) h
    · intro p q h
      rcases exists_of_mem_closedEdges h with ⟨i, hi, rfl, rfl⟩
      rw [det_vertexAt hcenter, sin_turnAngle_next_sub hi, add_sub_cancel_left]
      positivity

/-- A triangle in the far half of the sphere. -/
theorem regular_triangle_beyond_right_angle :
    let center : Vec3 ℝ := { x := 2 / 3, y := -2 / 3, z := 1 / 3 }
    center.norm = 1 ∧ 0 ≤ 2 * Real.pi / 3 ∧ 2 * Real.pi / 3 ≤ Real.pi ∧
      exists points, regular center (2 * Real.pi / 3) 3 = .ok points ∧
        points.length = 3 ∧ points.Nodup ∧
        forall p q, (p, q) ∈ closedEdges points ->
          p.dot q = -1 / 8 ∧
            0 < ({ x := center, y := p, z := q } : Frame ℝ).toMatrix.det := by
  intro center
  have hpi := Real.pi_pos
  have hcenter : center.norm = 1 := by
    rw [norm_eq_one_iff, dot_eq]
    norm_num [center]
  have hnonneg : 0 ≤ 2 * Real.pi / 3 := by positivity
  have hle : 2 * Real.pi / 3 ≤ Real.pi := by linarith
  have hcosine : Real.cos (2 * Real.pi / 3) = -1 / 2 := by
    have hsixth : 2 * Real.pi / 3 = Real.pi - Real.pi / 3 := by ring
    rw [hsixth, Real.cos_pi_sub, Real.cos_pi_div_three]
    norm_num
  rcases regular_polygons_are_regular hcenter hnonneg hle (le_refl 3) with
    ⟨points, hmade, hlength, _, _, hproducts, hturns⟩
  rcases hturns (by positivity) (by linarith) with ⟨hnodup, hturn⟩
  refine ⟨hcenter, hnonneg, hle, points, hmade, by exact_mod_cast hlength, hnodup, ?_⟩
  intro p q h
  refine ⟨?_, hturn p q h⟩
  rw [hproducts p q h, Real.sin_sq, Int.cast_ofNat, hcosine]
  norm_num

end Polygon

end SphereFixtures
