import Mathlib
import SphereFixtures.Demo.Run
import SphereFixtures.Proofs.Fractal.Inscribed
import SphereFixtures.Proofs.Fractal.Projection
import SphereFixtures.Proofs.Geometry.RandomFrames

/-!
# The range and the bounds of the demo

The demo reports the least and the greatest angle between the center and a vertex of
a loop.  Beside them it writes the radius factors, scaled by the nominal radius.  The
factors belong to the tangent plane, where a distance is the tangent of the angle.
-/

namespace SphereFixtures

/-!
## Vertices on the sphere
-/

namespace Snowflake

open Vec3

/-- Around the only axis that is left all points fall on one. -/
theorem angleTo_project_of_degenerate {frame : Frame ℝ} (h : frame.Degenerate)
    (radius : ℝ) (p : Vec2 ℝ) : frame.z.angleTo (project frame radius p) = 0 := by
  have hplaced : placed frame radius p = frame.z := h.toGlobal (by norm_num)
  rw [project_eq, hplaced]
  exact angleTo_divBy_self _ (norm_nonneg _)

/-- No point is seen at an angle as large as the distance that bounds it in the
tangent plane. -/
theorem angleTo_project_lt {frame : Frame ℝ}
    (hframe : frame.Orthonormal ∨ frame.Degenerate) {radius factor : ℝ}
    (hradius : 0 < radius) (hfactor : 0 < factor) {p : Vec2 ℝ}
    (hp : ‖p.toComplex‖ ≤ factor) :
    frame.z.angleTo (project frame radius p) < factor * radius := by
  have hproduct := mul_pos hfactor hradius
  rcases hframe with horthonormal | hdegenerate
  · have hle := (norm_le_iff_angleTo_le_arctan horthonormal p hradius factor).mp hp
    exact hle.trans_lt (arctan_lt_self hproduct)
  · rw [angleTo_project_of_degenerate hdegenerate]
    exact hproduct

end Snowflake

namespace Demo

open Sampling Scalar Settings Snowflake WordSource

/-!
## Least and greatest numbers
-/

theorem smaller_eq_min : (smaller : ℝ -> ℝ -> ℝ) = min := by
  funext a b
  have hself : (b == b) = true := beq_iff_eq.mpr rfl
  rw [smaller, if_pos hself, min_comm, min_def_lt]

theorem larger_eq_max : (larger : ℝ -> ℝ -> ℝ) = max := by
  funext a b
  have hself : (b == b) = true := beq_iff_eq.mpr rfl
  rw [larger, if_pos hself, max_def_lt]

theorem isLeast_smallest {xs : List ℝ} (h : xs ≠ []) :
    IsLeast { x | x ∈ xs } (smallest xs) := by
  cases xs with
  | nil => exact absurd rfl h
  | cons x rest =>
      rw [smallest, smaller_eq_min]
      exact List.min?_eq_some_iff.mp List.min?_cons'

theorem isGreatest_largest {xs : List ℝ} (h : xs ≠ []) :
    IsGreatest { x | x ∈ xs } (largest xs) := by
  cases xs with
  | nil => exact absurd rfl h
  | cons x rest =>
      rw [largest, larger_eq_max]
      exact List.max?_eq_some_iff.mp List.max?_cons'

/-!
## Runs
-/

variable {s : Settings ℝ} {degrees : ℝ} {σ : Type} [WordSource σ] {source after : σ}
  {m : Measurement ℝ}

/-- Frame and loop are drawn one after the other, and the loop alone may fail. -/
theorem measure_apply (source : σ) :
    measure s degrees source =
      (s.makeLoop (frameFrom (stream source)) (degreesToRadians degrees) >>= fun loop =>
        pure (measurement s degrees (frameFrom (stream source)) loop))
        (skip 12 source) := by
  rw [measure, Attempt.draw_bind_apply, frame_apply]
  rfl

theorem exists_measure (degrees : ℝ) {vertices : Array (Vec2 ℝ)}
    (h : s.vertices (skip 12 source) = (.ok vertices, after)) :
    exists m, measure s degrees source = (.ok m, after) := by
  rcases exists_makeLoop (frameFrom (stream source)) (degreesToRadians degrees) h with
    ⟨loop, hloop, _⟩
  rw [measure_apply, Attempt.bind_apply, hloop]
  exact ⟨_, rfl⟩

/-- The angle in degrees at which the demo sees a planar point. -/
noncomputable def seen (frame : Frame ℝ) (degrees : ℝ) (v : Vec2 ℝ) : ℝ :=
  radiansToDegrees (frame.z.angleTo (project frame (degreesToRadians degrees) v))

/-- Whether a measurement is one of a boundary with some vertices. -/
structure Measures (s : Settings ℝ) (degrees : ℝ) (frame : Frame ℝ)
    (vertices : List (Vec2 ℝ)) (m : Measurement ℝ) : Prop where
  realizes : s.Realizes vertices
  size : m.vertices = vertices.length
  bounds : m.bounds = (s.minRadiusFactor * degrees, s.maxRadiusFactor * degrees)
  least : IsLeast (seen frame degrees '' { v | v ∈ vertices }) m.range.1
  greatest : IsGreatest (seen frame degrees '' { v | v ∈ vertices }) m.range.2

theorem centralAngles_eq {frame : Frame ℝ} {loop : Loop ℝ} {radius : ℝ}
    {vertices : Array (Vec2 ℝ)} (h : loop.vertices = vertices.map (project frame radius)) :
    centralAngles frame loop =
      vertices.toList.map fun v => frame.z.angleTo (project frame radius v) := by
  rw [centralAngles, h, Array.toList_map, List.map_map]
  rfl

theorem measures_of_realizes {frame : Frame ℝ} {loop : Loop ℝ}
    {vertices : Array (Vec2 ℝ)} (hrealizes : s.Realizes vertices.toList)
    (hvertices : loop.vertices =
      vertices.map (project frame (degreesToRadians degrees))) :
    Measures s degrees frame vertices.toList (measurement s degrees frame loop) := by
  have hangles := centralAngles_eq hvertices
  have hsize : loop.size = vertices.toList.length := by
    rw [Loop.size, hvertices, Array.size_map, Array.length_toList]
  have hnonempty : centralAngles frame loop ≠ [] := by
    rw [← List.length_pos_iff, hangles, List.length_map, ← hsize]
    exact loop.size_pos
  have himage : seen frame degrees '' { v | v ∈ vertices.toList } =
      radiansToDegrees '' { x | x ∈ centralAngles frame loop } := by
    rw [hangles]
    ext x
    simp [seen]
  have hmono := radiansToDegrees_strictMono.monotone
  refine
    { realizes := hrealizes
      size := hsize
      bounds := rfl
      least := ?_
      greatest := ?_ }
  · rw [himage]
    exact hmono.map_isLeast (isLeast_smallest hnonempty)
  · rw [himage]
    exact hmono.map_isGreatest (isGreatest_largest hnonempty)

/-- The demo measures the boundary that it draws behind the frame. -/
theorem exists_measures (h : measure s degrees source = (.ok m, after)) :
    exists vertices : Array (Vec2 ℝ),
      s.vertices (skip 12 source) = (.ok vertices, after) ∧
        Measures s degrees (frameFrom (stream source)) vertices.toList m := by
  rw [measure_apply] at h
  rcases Attempt.exists_of_bind_eq_ok h with ⟨loop, t, hloop, hm⟩
  cases hm
  rcases hrun : s.vertices (skip 12 source) with ⟨error | vertices, u⟩
  · rw [makeLoop_of_error _ _ hrun] at hloop
    cases hloop
  · rcases exists_makeLoop (frameFrom (stream source)) (degreesToRadians degrees) hrun
      with ⟨made, hmade, hvertices⟩
    rw [hloop] at hmade
    cases hmade
    exact ⟨vertices, rfl, measures_of_realizes (realizes_of_vertices hrun) hvertices⟩

/-!
## Range and bounds
-/

section

variable {frame : Frame ℝ} {vertices : List (Vec2 ℝ)} (hdegrees : 0 < degrees)

theorem seen_of_degenerate (hframe : frame.Degenerate) (v : Vec2 ℝ) :
    seen frame degrees v = 0 := by
  rw [seen, angleTo_project_of_degenerate hframe, radiansToDegrees_eq, zero_mul]

include hdegrees

theorem degreesToRadians_pos : 0 < degreesToRadians degrees := by
  rw [degreesToRadians_eq]
  positivity

theorem seen_of_orthonormal (hframe : frame.Orthonormal) (v : Vec2 ℝ) :
    seen frame degrees v =
      radiansToDegrees (Real.arctan (degreesToRadians degrees * ‖v.toComplex‖)) := by
  rw [seen, angleTo_project hframe v (degreesToRadians_pos hdegrees)]

theorem seen_lt (hframe : frame.Orthonormal ∨ frame.Degenerate) {factor : ℝ}
    (hfactor : 0 < factor) {v : Vec2 ℝ} (hv : ‖v.toComplex‖ ≤ factor) :
    seen frame degrees v < factor * degrees := by
  rw [seen, ← radiansToDegrees_mul]
  exact radiansToDegrees_strictMono
    (angleTo_project_lt hframe (degreesToRadians_pos hdegrees) hfactor hv)

namespace Measures

variable (h : Measures s degrees frame vertices m)

include h

omit hdegrees in
theorem range_le : m.range.1 ≤ m.range.2 :=
  h.least.right h.greatest.left

theorem range_snd_lt (hs : s.Reachable)
    (hframe : frame.Orthonormal ∨ frame.Degenerate) : m.range.2 < m.bounds.2 := by
  rcases h.greatest.left with ⟨v, hv, hseen⟩
  rw [← hseen, h.bounds]
  exact seen_lt hdegrees hframe (one_pos.trans_le s.one_le_maxRadiusFactor)
    (h.realizes.norm_mem hs.proportions hv).right

omit hdegrees in
theorem range_of_degenerate (hframe : frame.Degenerate) : m.range = (0, 0) := by
  rcases h.least.left with ⟨v, _, hv⟩
  rcases h.greatest.left with ⟨w, _, hw⟩
  rw [seen_of_degenerate hframe] at hv hw
  rw [← Prod.eta m.range, ← hv, ← hw]

/-- The factors bound the range once they are seen on the sphere. -/
theorem seen_factors (hs : s.Reachable) (hframe : frame.Orthonormal) :
    radiansToDegrees
        (Real.arctan (s.minRadiusFactor * degreesToRadians degrees)) ≤ m.range.1 ∧
      m.range.2 ≤ radiansToDegrees
        (Real.arctan (s.maxRadiusFactor * degreesToRadians degrees)) := by
  have hradius := degreesToRadians_pos hdegrees
  rcases h.least.left with ⟨v, hv, hleast⟩
  rcases h.greatest.left with ⟨w, hw, hgreatest⟩
  have hmono := radiansToDegrees_strictMono.monotone
  rw [← hleast, ← hgreatest]
  constructor
  · exact hmono ((le_norm_iff_arctan_le_angleTo hframe v hradius _).mp
      (h.realizes.norm_mem hs.proportions hv).left)
  · exact hmono ((norm_le_iff_angleTo_le_arctan hframe w hradius _).mp
      (h.realizes.norm_mem hs.proportions hw).right)

/-- The lower bound holds exactly if the angles of all vertices reach the distance
that it was meant for in the tangent plane. -/
theorem lower_iff (hframe : frame.Orthonormal ∨ frame.Degenerate) :
    m.bounds.1 ≤ m.range.1 <->
      frame.Orthonormal ∧ forall v, v ∈ vertices ->
        s.minRadiusFactor * degreesToRadians degrees ≤
          Real.arctan (degreesToRadians degrees * ‖v.toComplex‖) := by
  have hbound : m.bounds.1 =
      radiansToDegrees (s.minRadiusFactor * degreesToRadians degrees) := by
    rw [h.bounds, radiansToDegrees_mul]
  have hpositive : 0 < m.bounds.1 := by
    rw [h.bounds]
    exact mul_pos (one_half_pos.trans_le s.half_le_minRadiusFactor) hdegrees
  rcases hframe with horthonormal | hdegenerate
  · rw [hbound, le_isGLB_iff h.least.isGLB, mem_lowerBounds, Set.forall_mem_image]
    simp only [seen_of_orthonormal hdegrees horthonormal,
      radiansToDegrees_strictMono.le_iff_le]
    exact ⟨fun hall => ⟨horthonormal, hall⟩, And.right⟩
  · -- a least angle of zero is below every bound
    have hrange : m.range.1 = 0 := by rw [h.range_of_degenerate hdegenerate]
    rw [hrange]
    exact iff_of_false hpositive.not_ge
      fun hboth => hdegenerate.not_orthonormal hboth.left

/-- From the first-vertex dimension on, the bound is the planar distance of an inner
point, unless all sides are kept. -/
theorem lower_iff_of_firstVertexDimension
    (hframe : frame.Orthonormal ∨ frame.Degenerate)
    (hfirst : firstVertexDimension ≤ s.dimension) :
    m.bounds.1 ≤ m.range.1 <->
      frame.Orthonormal ∧ m.vertices = 3 ∧
        s.minRadiusFactor * degreesToRadians degrees ≤
          Real.arctan (degreesToRadians degrees) := by
  have hfactor := one_half_pos.trans_le s.half_le_minRadiusFactor
  rw [h.size]
  rcases h.realizes.triangle_or_near hfirst with htriangle | ⟨hmore, v, hv, hnorm⟩
  · have hcorner : cornerA ∈ vertices := by
      rw [htriangle]
      exact List.mem_cons_self
    have hnorms (v : Vec2 ℝ) (hv : v ∈ vertices) : ‖v.toComplex‖ = 1 :=
      norm_of_mem_triangle (htriangle ▸ hv)
    rw [h.lower_iff hdegrees hframe]
    refine and_congr_right fun _ => ⟨fun hall => ?_, fun hbound v hv => ?_⟩
    · have hreach := hall cornerA hcorner
      rw [hnorms cornerA hcorner, mul_one] at hreach
      exact ⟨by rw [htriangle]; rfl, hreach⟩
    · rw [hnorms v hv, mul_one]
      exact hbound.right
  · -- the inner point alone is seen below the bound, whatever the radius is
    have hlt : m.range.1 < m.bounds.1 := by
      rw [h.bounds]
      exact (h.least.right ⟨v, hv, rfl⟩).trans_lt
        (seen_lt hdegrees hframe hfactor hnorm.le)
    exact iff_of_false hlt.not_ge fun hall => by omega

end Measures

end

/-- The demo measures a boundary whenever one can be drawn.  What it reports as range
are the least and the greatest angle of its vertices, and what it reports as bounds
are the radius factors times the nominal radius.  The greatest angle is always below
the upper bound.  The lower bound is kept only if the angles reach a distance that
belongs to the tangent plane; from the first-vertex dimension on this needs a boundary
whose sides are all kept.  The arcs whose tangents are the factors do bound the range
if the frame is orthonormal, and otherwise all angles are zero. -/
theorem range_against_bounds {s : Settings ℝ} (hs : s.Reachable) {degrees : ℝ}
    (hdegrees : 0 < degrees) {σ : Type} [WordSource σ] (source : σ) :
    let frame : Frame ℝ := frameFrom (stream source)
    let radius := degreesToRadians degrees
    (Sampling.frame : Draw σ (Frame ℝ)).run source = (frame, skip 12 source) ∧
    (frame.Orthonormal ∨ frame.Degenerate) ∧
    (0 ≤ s.maxLevel -> s.maxLevel - s.leastLevel + 1 ≤ DrawError.maxBound ->
      exists m after, (measure s degrees).run.run source = (.ok m, after)) ∧
    (forall m after, (measure s degrees).run.run source = (.ok m, after) ->
      exists vertices : Array (Vec2 ℝ),
        s.vertices.run.run (skip 12 source) = (.ok vertices, after) ∧
        m.vertices = vertices.size ∧
        m.bounds = (s.minRadiusFactor * degrees, s.maxRadiusFactor * degrees) ∧
        IsLeast (seen frame degrees '' { v | v ∈ vertices }) m.range.1 ∧
        IsGreatest (seen frame degrees '' { v | v ∈ vertices }) m.range.2 ∧
        m.range.1 ≤ m.range.2 ∧ m.range.2 < m.bounds.2 ∧
        (m.bounds.1 ≤ m.range.1 <->
          frame.Orthonormal ∧ forall v, v ∈ vertices ->
            s.minRadiusFactor * radius ≤ Real.arctan (radius * ‖v.toComplex‖)) ∧
        (firstVertexDimension ≤ s.dimension ->
          (m.bounds.1 ≤ m.range.1 <->
            frame.Orthonormal ∧ m.vertices = 3 ∧
              s.minRadiusFactor * radius ≤ Real.arctan radius)) ∧
        (frame.Orthonormal ->
          radiansToDegrees (Real.arctan (s.minRadiusFactor * radius)) ≤ m.range.1 ∧
            m.range.2 ≤ radiansToDegrees (Real.arctan (s.maxRadiusFactor * radius))) ∧
        (frame.Degenerate -> m.range = (0, 0))) := by
  intro frame radius
  have hframe : frame.Orthonormal ∨ frame.Degenerate := frameFrom_cases _
  refine ⟨frame_apply source, hframe, ?_, ?_⟩
  · intro hmax hroom
    rcases exists_vertices_of_room hmax hroom (skip 12 source) with
      ⟨vertices, after, hrun⟩
    rcases exists_measure degrees hrun with ⟨m, hm⟩
    exact ⟨m, after, hm⟩
  · intro m after hm
    rcases exists_measures hm with ⟨vertices, hrun, h⟩
    simp only [← Array.mem_toList_iff]
    exact ⟨vertices, hrun, h.size, h.bounds, h.least, h.greatest, h.range_le,
      h.range_snd_lt hdegrees hs hframe, h.lower_iff hdegrees hframe,
      h.lower_iff_of_firstVertexDimension hdegrees hframe,
      h.seen_factors hdegrees hs, h.range_of_degenerate⟩

/-- For a triangle with a nominal radius of one the lower bound is kept by every
orthonormal frame. -/
theorem range_of_triangle :
    let s : Settings ℝ :=
      { maxLevel := 0, minLevel := -1, dimension := snowflakeDimension }
    let source := Twister.ofSeed Seed.default
    s.Reachable ∧ 0 < 180 / Real.pi ∧
      exists m after,
        (measure s (180 / Real.pi)).run.run source = (.ok m, after) ∧
          m.vertices = 3 ∧ m.range.2 < m.bounds.2 ∧
          (m.bounds.1 ≤ m.range.1 <-> (frameFrom (stream source)).Orthonormal) := by
  intro s source
  have hs : s.Reachable := .set (.maxLevel 0) .initial rfl
  have hpos : 0 < 180 / Real.pi := by positivity
  rcases range_against_bounds hs hpos source with ⟨_, _, hruns, hfacts⟩
  rcases hruns (by decide) (by decide) with ⟨m, after, hm⟩
  rcases hfacts m after hm with
    ⟨vertices, hrun, hsize, _, _, _, _, hupper, _, hlower, _⟩
  have hlevels : s.levels? = some (Levels.single 0) := rfl
  rcases exists_vertices_of_single hlevels rfl (skip 12 source) with ⟨_, heven⟩
  cases hrun.symm.trans heven
  have hradius : degreesToRadians (180 / Real.pi) = 1 := by
    have hpi := Real.pi_ne_zero
    rw [degreesToRadians_eq]
    field_simp
  have hreach : (√3)⁻¹ * 1 ≤ Real.arctan 1 := by
    have hroot : (4 / 3 : ℝ) ≤ √3 := Real.le_sqrt_of_sq_le (by norm_num)
    have hinverse : (√3)⁻¹ ≤ (4 / 3 : ℝ)⁻¹ := inv_anti₀ (by norm_num) hroot
    have hpi := Real.pi_gt_three
    rw [Real.arctan_one]
    linarith
  refine ⟨hs, hpos, m, after, hm, hsize, hupper, ?_⟩
  rw [hlower firstVertexDimension_le_snowflakeDimension, hradius,
    minRadiusFactor_of_snowflakeDimension rfl]
  exact ⟨And.left, fun hframe => ⟨hframe, hsize, hreach⟩⟩

/-- The standard demo reports a least angle below its lower bound. -/
theorem standard_range_below_bounds :
    let s : Settings ℝ :=
      { maxLevel := 3, minLevel := -1, dimension := snowflakeDimension }
    s.Reachable ∧
      exists m after,
        (measure s 10).run.run (Twister.ofSeed Seed.default) = (.ok m, after) ∧
          m.vertices = 192 ∧ m.bounds = ((√3)⁻¹ * 10, 10) ∧
          m.range.1 < m.bounds.1 := by
  intro s
  have hs : s.Reachable := .set (.maxLevel 3) .initial rfl
  have hlevels : s.levels? = some (Levels.single 3) := rfl
  rcases exists_vertices_of_single hlevels rfl
    (skip 12 (Twister.ofSeed Seed.default)) with ⟨after, hrun⟩
  rcases exists_measure 10 hrun with ⟨m, hm⟩
  rcases exists_measures hm with ⟨vertices, hvertices, h⟩
  cases hrun.symm.trans hvertices
  have hsize : m.vertices = 192 := by
    rw [h.size, List.length_map, Subdivision.length_evenBoundary]
    rfl
  refine ⟨hs, m, after, hm, hsize, ?_, ?_⟩
  · rw [h.bounds, minRadiusFactor_of_snowflakeDimension rfl,
      maxRadiusFactor_of_snowflakeDimension rfl, one_mul]
  · rw [← not_le, h.lower_iff_of_firstVertexDimension (by norm_num) (frameFrom_cases _)
      firstVertexDimension_le_snowflakeDimension, hsize]
    rintro ⟨_, hthree, _⟩
    omega

end Demo

end SphereFixtures
