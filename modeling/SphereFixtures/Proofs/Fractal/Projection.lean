import SphereFixtures.Proofs.Fractal.RadiusFactors
import SphereFixtures.Proofs.Fractal.Refusal
import SphereFixtures.Proofs.Geometry.Orthonormal

/-!
# Boundaries on the sphere

A planar point is placed in the plane that touches the sphere, and what the middle
of the sphere sees in its direction is its place on the sphere.  Reading that place
in the frame gives the planar point back, and its angle from the third axis is the
one whose tangent is the planar distance.
-/

namespace SphereFixtures

/-!
## One point
-/

namespace Snowflake

open Vec3

/-- A planar point in the plane that touches the sphere at the third axis. -/
def placed {α : Type} [Scalar α] (frame : Frame α) (radius : α) (p : Vec2 α) :
    Vec3 α :=
  frame.toGlobal { x := p.x * radius, y := p.y * radius, z := 1.0 }

theorem project_eq {α : Type} [Scalar α] (frame : Frame α) (radius : α)
    (p : Vec2 α) :
    project frame radius p =
      (placed frame radius p).divBy (placed frame radius p).norm := rfl

theorem placed_eq (frame : Frame ℝ) (radius : ℝ) (p : Vec2 ℝ) :
    placed frame radius p =
      frame.toGlobal { x := radius * p.x, y := radius * p.y, z := 1 } := by
  have hone : (1.0 : ℝ) = 1 := by norm_num
  rw [placed, hone, mul_comm p.x, mul_comm p.y]

section

variable {frame : Frame ℝ} (hframe : frame.Orthonormal) (radius : ℝ) (p : Vec2 ℝ)

include hframe

theorem toLocal_placed :
    frame.toLocal (placed frame radius p) =
      { x := radius * p.x, y := radius * p.y, z := 1 } := by
  rw [placed_eq, hframe.toLocal_toGlobal]

theorem norm_placed_pos : 0 < (placed frame radius p).norm := by
  rw [placed_eq, hframe.norm_toGlobal, norm_eq, Real.sqrt_pos, dot_eq]
  nlinarith [sq_nonneg (radius * p.x), sq_nonneg (radius * p.y)]

theorem norm_project : (project frame radius p).norm = 1 :=
  norm_divBy_norm _ (norm_placed_pos hframe radius p)

theorem toLocal_project :
    frame.toLocal (project frame radius p) =
      divBy { x := radius * p.x, y := radius * p.y, z := 1 }
        (placed frame radius p).norm := by
  rw [project_eq, Frame.toLocal_divBy, toLocal_placed hframe]

theorem toLocal_project_z_pos : 0 < (frame.toLocal (project frame radius p)).z := by
  rw [toLocal_project hframe]
  exact one_div_pos.mpr (norm_placed_pos hframe radius p)

/-- The place on the sphere, divided by its third coordinate, is back in the
tangent plane. -/
theorem toLocal_project_divBy :
    (frame.toLocal (project frame radius p)).divBy
        (frame.toLocal (project frame radius p)).z =
      { x := radius * p.x, y := radius * p.y, z := 1 } := by
  have hpos := norm_placed_pos hframe radius p
  rw [toLocal_project hframe]
  simp only [divBy_eq, mk.injEq]
  refine ⟨?_, ?_, ?_⟩ <;> field_simp

variable {radius} (hradius : 0 < radius)

include hradius

theorem angleTo_project :
    frame.z.angleTo (project frame radius p) =
      Real.arctan (radius * ‖p.toComplex‖) := by
  have hnorm : √((radius * p.x) ^ 2 + (radius * p.y) ^ 2) =
      radius * ‖p.toComplex‖ := by
    rw [mul_pow, mul_pow, ← mul_add, Real.sqrt_mul (sq_nonneg radius),
      Real.sqrt_sq hradius.le, Complex.norm_eq_sqrt_sq_add_sq, Vec2.toComplex]
  -- moving the point onto the sphere keeps its direction
  rw [project_eq, angleTo_divBy _ _ (norm_placed_pos hframe radius p), placed_eq,
    hframe.angleTo_toGlobal one_pos, hnorm, div_one]

/-- Bounds on the planar distance are bounds on the angle. -/
theorem le_norm_iff_arctan_le_angleTo (factor : ℝ) :
    factor ≤ ‖p.toComplex‖ <->
      Real.arctan (factor * radius) ≤ frame.z.angleTo (project frame radius p) := by
  rw [angleTo_project hframe p hradius, Real.arctan_le_arctan_iff, mul_comm factor,
    mul_le_mul_iff_right₀ hradius]

theorem norm_le_iff_angleTo_le_arctan (factor : ℝ) :
    ‖p.toComplex‖ ≤ factor <->
      frame.z.angleTo (project frame radius p) ≤ Real.arctan (factor * radius) := by
  rw [angleTo_project hframe p hradius, Real.arctan_le_arctan_iff, mul_comm factor,
    mul_le_mul_iff_right₀ hradius]

theorem project_injective : Function.Injective (project frame radius) := by
  intro v w heq
  -- both points are read back from the one place they share
  have hv := toLocal_project_divBy hframe radius v
  rw [heq, toLocal_project_divBy hframe radius w, mk.injEq] at hv
  rcases hv with ⟨hx, hy, _⟩
  cases v
  cases w
  rw [Vec2.mk.injEq]
  constructor
  · exact (mul_left_cancel₀ hradius.ne' hx).symm
  · exact (mul_left_cancel₀ hradius.ne' hy).symm

end

/-- An angle is smaller than its tangent. -/
theorem arctan_lt_self {x : ℝ} (hx : 0 < x) : Real.arctan x < x := by
  have hlt := Real.lt_tan (Real.arctan_pos.mpr hx) (Real.arctan_lt_pi_div_two x)
  rwa [Real.tan_arctan] at hlt

end Snowflake

/-!
## Boundaries
-/

namespace Settings

open Plane Snowflake

theorem Realizes.simplePolygon {s : Settings ℝ} (hs : s.Reachable)
    {vertices : List (Vec2 ℝ)} (h : s.Realizes vertices) :
    SimplePolygon vertices := by
  rcases h with ⟨levels, _, r, rfl⟩
  exact r.simplePolygon hs.proportions

section

variable {α σ : Type} [Scalar α] [WordSource σ] {s : Settings α} {frame : Frame α}
  {radius : α} {source after : σ}

/-- A loop has the places of the vertices of a realization. -/
theorem exists_realizes_of_makeLoop {loop : Loop α}
    (h : s.makeLoop frame radius source = (.ok loop, after)) :
    exists vertices : Array (Vec2 α), s.Realizes vertices.toList ∧
      loop.vertices = vertices.map (project frame radius) := by
  rcases hrun : s.vertices source with ⟨error | vertices, t⟩
  · rw [makeLoop_of_error frame radius hrun] at h
    cases h
  · rcases exists_makeLoop frame radius hrun with ⟨loop', hloop, hvertices⟩
    rw [h] at hloop
    cases hloop
    exact ⟨vertices, realizes_of_vertices hrun, hvertices⟩

end

/-- A loop has the vertices of its realization, each at its own place on the
sphere.  For every planar point the place is found without dividing by zero, is on
the side of the third axis, and shows the planar point; the angle is that of the
planar distance and grows with it.  Hence the vertices of a loop differ from each
other and keep to the angles of the radius factors. -/
theorem projection_loses_nothing (s : Settings ℝ) {frame : Frame ℝ}
    (hframe : frame.Orthonormal) {radius : ℝ} (hradius : 0 < radius) {σ : Type}
    [WordSource σ] :
    let place := project frame radius
    let angle := fun v => frame.z.angleTo (place v)
    (forall (source after : σ) (vertices : Array (Vec2 ℝ)),
      s.vertices.run.run source = (.ok vertices, after) ->
        exists loop, (s.makeLoop frame radius).run.run source = (.ok loop, after) ∧
          loop.size = vertices.size ∧ loop.vertices = vertices.map place) ∧
    (forall v,
      place v = (placed frame radius v).divBy (placed frame radius v).norm ∧
        (placed frame radius v).norm ≠ 0 ∧
        (place v).norm = 1 ∧ 0 < (place v).dot frame.z ∧
        (frame.toLocal (place v)).z ≠ 0 ∧
        (frame.toLocal (place v)).divBy (frame.toLocal (place v)).z =
          { x := radius * v.x, y := radius * v.y, z := 1 } ∧
        angle v = Real.arctan (radius * ‖v.toComplex‖) ∧
        (v.toComplex ≠ 0 -> angle v < radius * ‖v.toComplex‖)) ∧
    (forall v w, ‖v.toComplex‖ < ‖w.toComplex‖ <-> angle v < angle w) ∧
    (forall v w, v ≠ w -> place v ≠ place w) ∧
    (forall (factor : ℝ) v,
      (factor ≤ ‖v.toComplex‖ <-> Real.arctan (factor * radius) ≤ angle v) ∧
        (‖v.toComplex‖ ≤ factor <-> angle v ≤ Real.arctan (factor * radius))) ∧
    (s.Reachable -> forall (source after : σ) (loop : Loop ℝ),
      (s.makeLoop frame radius).run.run source = (.ok loop, after) ->
        loop.vertices.toList.Nodup ∧ forall p, p ∈ loop.vertices ->
          Real.arctan (s.minRadiusFactor * radius) ≤ frame.z.angleTo p ∧
            frame.z.angleTo p ≤ Real.arctan (s.maxRadiusFactor * radius)) := by
  intro place angle
  have hangle (v : Vec2 ℝ) : angle v = Real.arctan (radius * ‖v.toComplex‖) :=
    angleTo_project hframe v hradius
  have hleast (factor : ℝ) (v : Vec2 ℝ) :=
    le_norm_iff_arctan_le_angleTo hframe v hradius factor
  have hgreatest (factor : ℝ) (v : Vec2 ℝ) :=
    norm_le_iff_angleTo_le_arctan hframe v hradius factor
  have hinjective := project_injective hframe hradius
  refine ⟨?_, ?_, ?_, ?_, fun factor v => ⟨hleast factor v, hgreatest factor v⟩, ?_⟩
  · intro source after vertices h
    rcases exists_makeLoop frame radius h with ⟨loop, hloop, hvertices⟩
    refine ⟨loop, hloop, ?_, hvertices⟩
    rw [Loop.size, hvertices, Array.size_map]
  · intro v
    have hz := toLocal_project_z_pos hframe radius v
    refine ⟨project_eq frame radius v, (norm_placed_pos hframe radius v).ne',
      norm_project hframe radius v, ?_, hz.ne', toLocal_project_divBy hframe radius v,
      hangle v, ?_⟩
    · rw [Vec3.dot_comm]
      exact hz
    · intro hv
      rw [hangle]
      exact arctan_lt_self (mul_pos hradius (norm_pos_iff.mpr hv))
  · intro v w
    rw [hangle, hangle, Real.arctan_lt_arctan_iff, mul_lt_mul_iff_right₀ hradius]
  · intro v w hne
    exact hinjective.ne hne
  · intro hs source after loop h
    rcases exists_realizes_of_makeLoop h with ⟨vertices, hrealizes, hvertices⟩
    rw [hvertices]
    constructor
    · rw [Array.toList_map]
      exact (hrealizes.simplePolygon hs).nodup.map hinjective
    · intro p hp
      rcases Array.mem_map.mp hp with ⟨v, hv, rfl⟩
      have hnorm := hrealizes.norm_mem hs.proportions (Array.mem_toList_iff.mpr hv)
      exact ⟨(hleast _ v).mp hnorm.left, (hgreatest _ v).mp hnorm.right⟩

/-- Around the first coordinate axis and with a nominal radius of one, a standard
snowflake is seen at angles from a sixth to a quarter of a half turn. -/
theorem loop_of_standard_snowflake :
    let s : Settings ℝ :=
      { maxLevel := 3, minLevel := 1, dimension := snowflakeDimension }
    let frame : Frame ℝ :=
      { x := { x := 0, y := 1, z := 0 }
        y := { x := 0, y := 0, z := 1 }
        z := { x := 1, y := 0, z := 0 } }
    frame.Orthonormal ∧ s.Reachable ∧
      exists (vertices : Array (Vec2 ℝ)) (loop : Loop ℝ) (after : Twister),
        s.vertices.run.run (Twister.ofSeed Seed.default) = (.ok vertices, after) ∧
          (s.makeLoop frame 1).run.run (Twister.ofSeed Seed.default) =
            (.ok loop, after) ∧
          loop.vertices = vertices.map (project frame 1) ∧
          loop.vertices.toList.Nodup ∧ forall p, p ∈ loop.vertices ->
            p.norm = 1 ∧ Real.pi / 6 ≤ frame.z.angleTo p ∧
              frame.z.angleTo p ≤ Real.pi / 4 := by
  intro s frame
  have hframe : frame.Orthonormal := by
    constructor <;> norm_num [Vec3.dot_eq, frame]
  have hs : s.Reachable :=
    .set (.minLevel 1) (.set (.maxLevel 3) .initial rfl) rfl
  have hlevels : s.levels? =
      some { least := 1, greatest := 3, least_le := by decide } := rfl
  rcases exists_vertices hlevels (by decide) (Twister.ofSeed Seed.default) with
    ⟨vertices, after, hrun⟩
  rcases @projection_loses_nothing s frame hframe 1 one_pos Twister _ with
    ⟨hmakes, hpoints, _, _, _, hloops⟩
  rcases hmakes _ after vertices hrun with ⟨loop, hloop, _, hvertices⟩
  rcases hloops hs _ after loop hloop with ⟨hnodup, hangles⟩
  refine ⟨hframe, hs, vertices, loop, after, hrun, hloop, hvertices, hnodup, ?_⟩
  intro p hp
  have hbounds := hangles p hp
  rw [minRadiusFactor_of_snowflakeDimension rfl,
    maxRadiusFactor_of_snowflakeDimension rfl, mul_one, mul_one,
    Real.arctan_inv_sqrt_three, Real.arctan_one] at hbounds
  rw [hvertices] at hp
  rcases Array.mem_map.mp hp with ⟨v, _, rfl⟩
  exact ⟨(hpoints v).right.right.left, hbounds⟩

end Settings

end SphereFixtures
