import SphereFixtures.Proofs.Fractal.Projection
import SphereFixtures.Proofs.Geometry.RegularPolygons

/-!
# Concentric loops

In the tangent plane at the center the loops are regular polygons that are turned the
same way.  The side of one polygon bounds a half-plane in which all smaller ones lie,
so no two of them meet, although the sides of a large polygon may pass inside the
circle of a small one.  An arc between two vertices is seen as the segment between
them, so the loops do not meet on the sphere either.
-/

namespace SphereFixtures

/-!
## Arcs and segments
-/

namespace Vec3

/-- A sum of multiples of two vectors. -/
def blend (s t : ℝ) (a b : Vec3 ℝ) : Vec3 ℝ :=
  { x := s * a.x + t * b.x, y := s * a.y + t * b.y, z := s * a.z + t * b.z }

/-- The arc of a great circle from one point of the sphere to another one that is not
opposite to it: the points of the sphere in directions between theirs. -/
def arc (a b : Vec3 ℝ) : Set (Vec3 ℝ) :=
  { p | p.norm = 1 ∧ exists s t, 0 ≤ s ∧ 0 ≤ t ∧ p = blend s t a b }

theorem blend_zero (a b : Vec3 ℝ) : blend 0 0 a b = zero := by
  rw [zero_eq, blend]
  simp only [zero_mul, add_zero]

theorem dot_blend (c a b : Vec3 ℝ) (s t : ℝ) :
    c.dot (blend s t a b) = s * c.dot a + t * c.dot b := by
  simp only [dot_eq, blend]
  ring

theorem left_mem_arc {a : Vec3 ℝ} (ha : a.norm = 1) (b : Vec3 ℝ) : a ∈ arc a b := by
  refine ⟨ha, 1, 0, zero_le_one, le_rfl, ?_⟩
  rw [blend]
  simp only [one_mul, zero_mul, add_zero]

end Vec3

namespace Frame

open Vec3

/-- The point of the tangent plane at the third axis that the middle of the sphere sees
behind a point. -/
noncomputable def shown (f : Frame ℝ) (v : Vec3 ℝ) : ℂ :=
  ⟨(f.toLocal v).x / (f.toLocal v).z, (f.toLocal v).y / (f.toLocal v).z⟩

/-- An arc on the side of the third axis is seen as a segment of the tangent plane. -/
theorem shown_mem_segment (f : Frame ℝ) {a b p : Vec3 ℝ} (ha : 0 < (f.toLocal a).z)
    (hb : 0 < (f.toLocal b).z) (hp : p ∈ arc a b) :
    f.shown p ∈ segment ℝ (f.shown a) (f.shown b) := by
  rcases hp with ⟨hunit, s, t, hs, ht, rfl⟩
  have hx : (f.toLocal (blend s t a b)).x = s * (f.toLocal a).x + t * (f.toLocal b).x :=
    dot_blend _ _ _ _ _
  have hy : (f.toLocal (blend s t a b)).y = s * (f.toLocal a).y + t * (f.toLocal b).y :=
    dot_blend _ _ _ _ _
  have hz : (f.toLocal (blend s t a b)).z = s * (f.toLocal a).z + t * (f.toLocal b).z :=
    dot_blend _ _ _ _ _
  have hpos : 0 < s * (f.toLocal a).z + t * (f.toLocal b).z := by
    rcases hs.eq_or_lt with rfl | hs
    · rcases ht.eq_or_lt with rfl | ht
      · rw [blend_zero] at hunit
        exact absurd rfl (ne_zero_of_norm_eq_one _ hunit)
      · positivity
    · positivity
  -- each end has the weight of its own third coordinate
  refine ⟨s * (f.toLocal a).z / (s * (f.toLocal a).z + t * (f.toLocal b).z),
    t * (f.toLocal b).z / (s * (f.toLocal a).z + t * (f.toLocal b).z),
    by positivity, by positivity, ?_, ?_⟩
  · rw [← add_div, div_self hpos.ne']
  · rw [shown, shown, shown, hx, hy, hz]
    apply Complex.ext <;>
      simp only [Complex.add_re, Complex.add_im, Complex.smul_re, Complex.smul_im,
        smul_eq_mul] <;>
      field_simp

/-- A point that is projected to the sphere is seen where it was in the plane. -/
theorem shown_project {f : Frame ℝ} (hf : f.Orthonormal) (radius : ℝ) (p : Vec2 ℝ) :
    f.shown (Snowflake.project f radius p) = ⟨radius * p.x, radius * p.y⟩ := by
  have hback := Snowflake.toLocal_project_divBy hf radius p
  rw [divBy_eq, Vec3.mk.injEq] at hback
  exact Complex.ext hback.left hback.right.left

end Frame

/-!
## Loops
-/

namespace Loop

/-- The points of the arcs of a loop. -/
def boundary (loop : Loop ℝ) : Set (Vec3 ℝ) :=
  { p | exists a b, (a, b) ∈ loop.edges ∧ p ∈ Vec3.arc a b }

/-- The points of the tangent plane between the ends of an edge of a loop. -/
def outline (loop : Loop ℝ) (f : Frame ℝ) : Set ℂ :=
  { z | exists a b, (a, b) ∈ loop.edges ∧ z ∈ segment ℝ (f.shown a) (f.shown b) }

theorem position_natCast {α : Type} (loop : Loop α) (i : Nat) :
    loop.position i = i % loop.vertices.toList.length := by
  rw [position, ← Int.natCast_mod, Int.toNat_natCast]
  rfl

theorem edges_eq_closedEdges {α : Type} (loop : Loop α) :
    loop.edges = closedEdges loop.vertices.toList := by
  apply List.ext_getElem
  · rw [length_closedEdges, edges, List.length_map, List.length_range]
    rfl
  · intro i hi hi'
    rw [length_closedEdges] at hi'
    have hnext : loop.position (i + 1) = (i + 1) % loop.vertices.toList.length :=
      loop.position_natCast (i + 1)
    have hhere : loop.position i = i := by
      rw [position_natCast, Nat.mod_eq_of_lt hi']
    simp only [edges, closedEdges, List.getElem_map, List.getElem_range,
      List.getElem_zip, List.getElem_rotate, vertex, hhere, hnext, Array.getElem_toList]

theorem mem_boundary_of_mem_vertices {loop : Loop ℝ} {p : Vec3 ℝ}
    (h : p ∈ loop.vertices) (hp : p.norm = 1) : p ∈ loop.boundary := by
  rcases Array.getElem_of_mem h with ⟨i, hi, rfl⟩
  have hvertex : loop.vertex i = loop.vertices[i] := by
    simp only [vertex, position_natCast, Array.length_toList, Nat.mod_eq_of_lt hi]
  have hedge : (loop.vertex i, loop.vertex (i + 1)) ∈ loop.edges :=
    List.mem_map.mpr ⟨i, List.mem_range.mpr hi, rfl⟩
  rw [hvertex] at hedge
  exact ⟨_, _, hedge, Vec3.left_mem_arc hp _⟩

/-- Loops meet in the tangent plane where they meet on the sphere. -/
theorem disjoint_boundary {inner outer : Loop ℝ} {f : Frame ℝ}
    (hinner : forall a b, (a, b) ∈ inner.edges ->
      0 < (f.toLocal a).z ∧ 0 < (f.toLocal b).z)
    (houter : forall a b, (a, b) ∈ outer.edges ->
      0 < (f.toLocal a).z ∧ 0 < (f.toLocal b).z)
    (h : Disjoint (inner.outline f) (outer.outline f)) :
    Disjoint inner.boundary outer.boundary := by
  rw [Set.disjoint_left] at h ⊢
  rintro p ⟨a, b, hab, hp⟩ ⟨c, d, hcd, hq⟩
  exact h
    ⟨a, b, hab, f.shown_mem_segment (hinner a b hab).left (hinner a b hab).right hp⟩
    ⟨c, d, hcd, f.shown_mem_segment (houter c d hcd).left (houter c d hcd).right hq⟩

end Loop

namespace Polygon

open Vec3

/-!
## Sides of a polygon in the tangent plane
-/

/-- How far a point of the plane lies in a direction. -/
noncomputable def reach (beta : ℝ) : ℂ →ₗ[ℝ] ℝ :=
  Real.cos beta • Complex.reLm + Real.sin beta • Complex.imLm

/-- A vertex in the tangent plane. -/
noncomputable def spot (count : Nat) (radius : ℝ) (i : Nat) : ℂ :=
  ⟨radius * Real.cos (turnAngle count i), radius * Real.sin (turnAngle count i)⟩

/-- The side from a vertex to the next one in the tangent plane. -/
def side (count : Nat) (radius : ℝ) (i : Nat) : Set ℂ :=
  segment ℝ (spot count radius i) (spot count radius ((i + 1) % count))

/-- The direction of the middle of a side. -/
noncomputable def middleAngle (count i : Nat) : ℝ :=
  turnAngle count i + Real.pi / count

theorem reach_spot (beta : ℝ) (count : Nat) (radius : ℝ) (i : Nat) :
    reach beta (spot count radius i) =
      radius * Real.cos (turnAngle count i - beta) := by
  rw [Real.cos_sub]
  show Real.cos beta * (radius * Real.cos _) + Real.sin beta * (radius * Real.sin _) = _
  ring

section

variable {count k l : Nat}

/-- An odd number of half steps does not come closer to a full turn than one of them. -/
theorem cos_odd_mul_le {d : Nat} (hd : d < count) :
    Real.cos ((2 * d + 1) * (Real.pi / count)) ≤ Real.cos (Real.pi / count) := by
  have hnonneg : (0 : ℝ) ≤ d := Nat.cast_nonneg d
  have hlt : (d : ℝ) + 1 ≤ count := by exact_mod_cast hd
  have hcount : (0 : ℝ) < count := by linarith
  have hstep : 0 < Real.pi / count := by positivity
  have hturn : Real.pi / count * count = Real.pi := div_mul_cancel₀ _ hcount.ne'
  have hlow : Real.pi / count ≤ (2 * d + 1) * (Real.pi / count) :=
    le_mul_of_one_le_left hstep.le (by linarith)
  have hhigh : Real.pi / count ≤ 2 * Real.pi - (2 * d + 1) * (Real.pi / count) := by
    nlinarith
  -- the cosine falls in the first half of a turn and rises in the second one
  rcases le_total ((2 * d + 1) * (Real.pi / count)) Real.pi with hhalf | hhalf
  · exact Real.cos_le_cos_of_nonneg_of_le_pi hstep.le hhalf hlow
  · rw [← Real.cos_two_pi_sub]
    exact Real.cos_le_cos_of_nonneg_of_le_pi hstep.le (by linarith) hhigh

/-- No vertex lies farther in the direction of a side than the side. -/
theorem cos_turnAngle_sub_middleAngle_le (hk : k < count) (hl : l < count) :
    Real.cos (turnAngle count k - middleAngle count l) ≤ Real.cos (Real.pi / count) := by
  -- from the middle of a side the vertices are odd numbers of half steps away
  rcases le_or_gt k l with hle | hlt
  · rcases Nat.exists_eq_add_of_le hle with ⟨d, rfl⟩
    have hangle : turnAngle count k - middleAngle count (k + d) =
        -((2 * d + 1) * (Real.pi / count)) := by
      rw [middleAngle, turnAngle_eq, turnAngle_eq]
      push_cast
      ring
    rw [hangle, Real.cos_neg]
    exact cos_odd_mul_le (by omega)
  · rcases Nat.exists_eq_add_of_lt hlt with ⟨d, rfl⟩
    have hangle : turnAngle count (l + d + 1) - middleAngle count l =
        (2 * d + 1) * (Real.pi / count) := by
      rw [middleAngle, turnAngle_eq, turnAngle_eq]
      push_cast
      ring
    rw [hangle]
    exact cos_odd_mul_le (by omega)

theorem cos_turnAngle_sub_middleAngle :
    Real.cos (turnAngle count l - middleAngle count l) = Real.cos (Real.pi / count) := by
  rw [middleAngle, sub_add_cancel_left, Real.cos_neg]

theorem cos_turnAngle_next_sub_middleAngle (hl : l < count) :
    Real.cos (turnAngle count ((l + 1) % count) - middleAngle count l) =
      Real.cos (Real.pi / count) := by
  rw [cos_turnAngle_next_sub hl, middleAngle]
  congr 1
  ring

section

variable {radius : ℝ} {z : ℂ}

/-- A side lies on one line. -/
theorem reach_of_mem_side (hl : l < count) (hz : z ∈ side count radius l) :
    reach (middleAngle count l) z = radius * Real.cos (Real.pi / count) := by
  have hstart : reach (middleAngle count l) (spot count radius l) =
      radius * Real.cos (Real.pi / count) := by
    rw [reach_spot, cos_turnAngle_sub_middleAngle]
  have hstop : reach (middleAngle count l) (spot count radius ((l + 1) % count)) =
      radius * Real.cos (Real.pi / count) := by
    rw [reach_spot, cos_turnAngle_next_sub_middleAngle hl]
  exact (convex_hyperplane (reach (middleAngle count l)).isLinear _).segment_subset
    hstart hstop hz

/-- No side of the polygon lies behind this line. -/
theorem reach_le_of_mem_side (hradius : 0 ≤ radius) (hk : k < count) (hl : l < count)
    (hz : z ∈ side count radius k) :
    reach (middleAngle count l) z ≤ radius * Real.cos (Real.pi / count) := by
  have hvertex (i : Nat) (hi : i < count) :
      reach (middleAngle count l) (spot count radius i) ≤
        radius * Real.cos (Real.pi / count) := by
    rw [reach_spot]
    exact mul_le_mul_of_nonneg_left (cos_turnAngle_sub_middleAngle_le hi hl) hradius
  have hnext : (k + 1) % count < count := Nat.mod_lt _ (Nat.zero_lt_of_lt hk)
  exact (convex_halfSpace_le (reach (middleAngle count l)).isLinear _).segment_subset
    (hvertex k hk) (hvertex _ hnext) hz

end

theorem cos_half_step_pos (hcount : 3 ≤ count) : 0 < Real.cos (Real.pi / count) := by
  have hthree : (3 : ℝ) ≤ count := by exact_mod_cast hcount
  have hstep : 0 < Real.pi / count := div_pos Real.pi_pos (by linarith)
  have hquarter : Real.pi / count < Real.pi / 2 :=
    div_lt_div_of_pos_left Real.pi_pos two_pos (by linarith)
  exact Real.cos_pos_of_mem_Ioo ⟨by linarith [Real.pi_pos], hquarter⟩

/-- The sides of polygons of different sizes do not meet. -/
theorem disjoint_sides (hcount : 3 ≤ count) (hk : k < count) (hl : l < count)
    {small large : ℝ} (hsmall : 0 ≤ small) (hlt : small < large) :
    Disjoint (side count small k) (side count large l) := by
  rw [Set.disjoint_left]
  intro z hz hz'
  have hlow := reach_le_of_mem_side hsmall hk hl hz
  rw [reach_of_mem_side hl hz'] at hlow
  -- the line of the larger side lies behind that of the smaller polygon
  exact absurd hlow (not_le.mpr (mul_lt_mul_of_pos_right hlt (cos_half_step_pos hcount)))

end

/-!
## Loops around a center
-/

theorem isFinite_real (x : ℝ) : Scalar.isFinite x = true := by
  have hzero : (0.0 : ℝ) = 0 := by norm_num
  show (x - x == (0.0 : ℝ)) = true
  rw [sub_self, hzero]
  exact beq_self_eq_true 0

section

variable (loops index : Nat)

theorem concentricRadius_eq :
    concentricRadius loops index = 0.005 * ((index : ℝ) + 1) / loops := by
  rw [← Nat.cast_succ]
  rfl

variable {loops} (hloops : 1 ≤ loops)

include hloops

theorem concentricRadius_pos : 0 < (concentricRadius loops index : ℝ) := by
  rw [concentricRadius_eq]
  positivity

theorem concentricRadius_strictMono :
    StrictMono (concentricRadius loops : Nat -> ℝ) := by
  intro i j hlt
  rw [concentricRadius_eq, concentricRadius_eq]
  gcongr

end

/-- The direction of a vertex. -/
noncomputable def bearing (theta : ℝ) : Vec2 ℝ :=
  { x := Real.cos theta, y := Real.sin theta }

theorem norm_bearing (theta : ℝ) : ‖(bearing theta).toComplex‖ = 1 := by
  rw [Complex.norm_eq_sqrt_sq_add_sq, Real.sqrt_eq_one]
  exact Real.cos_sq_add_sin_sq theta

/-- It makes no difference whether a point is scaled before or after it is placed. -/
theorem toGlobal_onCircle_divBy {frame : Frame ℝ} (hframe : frame.Orthonormal)
    (radius theta : ℝ) :
    frame.toGlobal ((onCircle radius 1.0 theta).divBy (onCircle radius 1.0 theta).norm) =
      Snowflake.project frame radius (bearing theta) := by
  have hplaced : Snowflake.placed frame radius (bearing theta) =
      frame.toGlobal (onCircle radius 1.0 theta) := by
    rw [Snowflake.placed, onCircle, mul_comm radius, mul_comm radius]
    rfl
  rw [Snowflake.project_eq, hplaced, hframe.norm_toGlobal, Frame.toGlobal_divBy]

theorem size_tangentLoop {α : Type} [Scalar α] (center : Vec3 α) (radius : α)
    {count : Nat} (hcount : 3 ≤ count) :
    (tangentLoop center radius count hcount).size = count := by
  rw [Loop.size, tangentLoop, List.size_toArray, length_tangentVertices]

section

variable {center : Vec3 ℝ} (hcenter : center.norm = 1) {radius : ℝ} {count : Nat}

/-- A vertex of a loop. -/
noncomputable def tangentVertex (center : Vec3 ℝ) (radius : ℝ) (count i : Nat) :
    Vec3 ℝ :=
  Snowflake.project (Frame.ofAxis center) radius (bearing (turnAngle count i))

include hcenter

theorem tangentVertices_eq :
    tangentVertices center radius count =
      (List.range count).map (tangentVertex center radius count) := by
  have hframe := (Frame.rightHanded_ofAxis hcenter).toOrthonormal
  simp only [tangentVertices, toGlobal_onCircle_divBy hframe, turnAngles_eq, List.map_map]
  rfl

theorem shown_tangentVertex (i : Nat) :
    (Frame.ofAxis center).shown (tangentVertex center radius count i) =
      spot count radius i :=
  Frame.shown_project (Frame.rightHanded_ofAxis hcenter).toOrthonormal _ _

theorem tangentVertex_spec (hradius : 0 < radius) (i : Nat) :
    (tangentVertex center radius count i).norm = 1 ∧
      center.angleTo (tangentVertex center radius count i) = Real.arctan radius := by
  have hframe := (Frame.rightHanded_ofAxis hcenter).toOrthonormal
  have hangle := Snowflake.angleTo_project hframe (bearing (turnAngle count i)) hradius
  rw [norm_bearing, mul_one] at hangle
  exact ⟨Snowflake.norm_project hframe _ _, hangle⟩

variable (hcount : 3 ≤ count)

theorem mem_vertices_tangentLoop {p : Vec3 ℝ}
    (h : p ∈ (tangentLoop center radius count hcount).vertices) :
    exists i, i < count ∧ p = tangentVertex center radius count i := by
  rw [tangentLoop, List.mem_toArray, tangentVertices_eq hcenter] at h
  rcases List.mem_map.mp h with ⟨i, hi, rfl⟩
  exact ⟨i, List.mem_range.mp hi, rfl⟩

theorem mem_edges_tangentLoop {a b : Vec3 ℝ}
    (h : (a, b) ∈ (tangentLoop center radius count hcount).edges) :
    exists i, i < count ∧ a = tangentVertex center radius count i ∧
      b = tangentVertex center radius count ((i + 1) % count) := by
  rw [Loop.edges_eq_closedEdges] at h
  apply exists_of_mem_closedEdges
  rw [← tangentVertices_eq hcenter]
  exact h

theorem toLocal_z_pos_of_mem_edges {a b : Vec3 ℝ}
    (h : (a, b) ∈ (tangentLoop center radius count hcount).edges) :
    0 < ((Frame.ofAxis center).toLocal a).z ∧ 0 < ((Frame.ofAxis center).toLocal b).z := by
  have hframe := (Frame.rightHanded_ofAxis hcenter).toOrthonormal
  rcases mem_edges_tangentLoop hcenter hcount h with ⟨i, _, rfl, rfl⟩
  exact ⟨Snowflake.toLocal_project_z_pos hframe _ _,
    Snowflake.toLocal_project_z_pos hframe _ _⟩

theorem disjoint_outline_tangentLoop {small large : ℝ} (hsmall : 0 ≤ small)
    (hlt : small < large) :
    Disjoint ((tangentLoop center small count hcount).outline (Frame.ofAxis center))
      ((tangentLoop center large count hcount).outline (Frame.ofAxis center)) := by
  rw [Set.disjoint_left]
  rintro z ⟨a, b, hab, hz⟩ ⟨c, d, hcd, hz'⟩
  rcases mem_edges_tangentLoop hcenter hcount hab with ⟨k, hk, rfl, rfl⟩
  rcases mem_edges_tangentLoop hcenter hcount hcd with ⟨l, hl, rfl, rfl⟩
  rw [shown_tangentVertex hcenter, shown_tangentVertex hcenter] at hz hz'
  exact Set.disjoint_left.mp (disjoint_sides hcount hk hl hsmall hlt) hz hz'

end

/-- Around every vector of length one there are as many concentric loops as are asked
for, from one on, and as many vertices in each, from three on.  The vertices have
length one and lie on their loop, and the center sees those of a loop at the angle
whose tangent is the radius of the loop.  No point lies on two of the loops, neither on
the arcs between their vertices nor on the segments between them in the tangent
plane. -/
theorem concentric_loops_never_meet {center : Vec3 ℝ} (hcenter : center.norm = 1)
    {loops count : Int} (hloops : 1 ≤ loops) (hcount : 3 ≤ count) :
    exists made, concentric center loops count = .ok made ∧
      (made.length : Int) = loops ∧
      (forall i (hi : i < made.length), (made[i].size : Int) = count ∧
        forall p, p ∈ made[i].vertices ->
          p.norm = 1 ∧ center.angleTo p = Real.arctan (0.005 * (i + 1) / loops) ∧
            p ∈ made[i].boundary) ∧
      made.Pairwise fun inner outer =>
        Disjoint inner.boundary outer.boundary ∧
          Disjoint (inner.outline (Frame.ofAxis center))
            (outer.outline (Frame.ofAxis center)) := by
  rcases Int.eq_ofNat_of_zero_le (zero_le_one.trans hloops) with ⟨n, rfl⟩
  rcases Int.eq_ofNat_of_zero_le ((by decide : (0 : Int) ≤ 3).trans hcount) with ⟨m, rfl⟩
  have hone : 1 ≤ n := by exact_mod_cast hloops
  have hthree : 3 ≤ m := by exact_mod_cast hcount
  have hmade : concentric center n m = .ok ((List.range n).map fun index =>
      tangentLoop center (concentricRadius n index) m hthree) := by
    simp only [concentric, Int.toNat_natCast, if_neg (not_lt.mpr hloops),
      if_neg (not_lt.mpr (Int.natCast_nonneg m)), isFinite_real, Bool.not_true,
      Bool.false_eq_true, if_false, dif_pos hthree]
  refine ⟨_, hmade, by rw [List.length_map, List.length_range], ?_, ?_⟩
  · intro i hi
    rw [List.getElem_map, List.getElem_range]
    refine ⟨congrArg Nat.cast (size_tangentLoop _ _ hthree), ?_⟩
    intro p hp
    have hvertex : p.norm = 1 ∧ center.angleTo p = Real.arctan (concentricRadius n i) := by
      rcases mem_vertices_tangentLoop hcenter hthree hp with ⟨k, _, rfl⟩
      exact tangentVertex_spec hcenter (concentricRadius_pos i hone) k
    rw [concentricRadius_eq] at hvertex
    exact ⟨hvertex.left, hvertex.right, Loop.mem_boundary_of_mem_vertices hp hvertex.left⟩
  · rw [List.pairwise_map]
    apply List.pairwise_lt_range.imp
    intro i j hlt
    have houtline := disjoint_outline_tangentLoop hcenter hthree
      (concentricRadius_pos i hone).le (concentricRadius_strictMono hone hlt)
    refine ⟨Loop.disjoint_boundary ?_ ?_ houtline, houtline⟩
    · intro a b h
      exact toLocal_z_pos_of_mem_edges hcenter hthree h
    · intro a b h
      exact toLocal_z_pos_of_mem_edges hcenter hthree h

/-- The sides of a triangle come twice as near to the center as its vertices. -/
theorem four_triangles_around_a_center :
    let center : Vec3 ℝ := { x := 2 / 3, y := -2 / 3, z := 1 / 3 }
    center.norm = 1 ∧ (1 : Int) ≤ 4 ∧ (3 : Int) ≤ 3 ∧
      exists made, concentric center 4 3 = .ok made ∧ made.length = 4 ∧
        (forall i (hi : i < made.length), made[i].size = 3 ∧
          forall p, p ∈ made[i].vertices ->
            center.angleTo p = Real.arctan ((i + 1) / 800)) ∧
        made.Pairwise fun inner outer => Disjoint inner.boundary outer.boundary := by
  intro center
  have hcenter : center.norm = 1 := by
    rw [norm_eq_one_iff, dot_eq]
    norm_num [center]
  have hloops : (1 : Int) ≤ 4 := by decide
  rcases concentric_loops_never_meet hcenter hloops (le_refl 3) with
    ⟨made, hmade, hlength, hloop, hpairs⟩
  refine ⟨hcenter, hloops, le_refl 3, made, hmade, by exact_mod_cast hlength, ?_,
    hpairs.imp And.left⟩
  intro i hi
  rcases hloop i hi with ⟨hsize, hvertices⟩
  refine ⟨by exact_mod_cast hsize, ?_⟩
  intro p hp
  have hradius : 0.005 * ((i : ℝ) + 1) / (4 : Int) = (i + 1) / 800 := by
    push_cast
    ring
  rw [(hvertices p hp).right.left, hradius]

end Polygon

end SphereFixtures
