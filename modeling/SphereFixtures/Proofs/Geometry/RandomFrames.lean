import SphereFixtures.Proofs.Geometry.Handedness
import SphereFixtures.Proofs.Session.Answers

/-!
# Random frames

A frame is turned away from a direction by two products.  Its axes are orthonormal and
right-handed unless the direction is parallel to the third axis; then the first two
axes vanish, and every point is placed on the line of the third one.
-/

namespace SphereFixtures

/-!
## Frames
-/

namespace Frame

open Vec3

/-- Whether only the third axis is left. -/
structure Degenerate (f : Frame ℝ) : Prop where
  x_zero : f.x = zero
  y_zero : f.y = zero

variable {f : Frame ℝ}

theorem Degenerate.not_orthonormal (h : f.Degenerate) : ¬ f.Orthonormal := by
  intro horthonormal
  have hunit := horthonormal.x_unit
  rw [h.x_zero, (dot_self_eq_zero_iff _).mpr rfl] at hunit
  exact zero_ne_one hunit

theorem Degenerate.toGlobal (h : f.Degenerate) {p : Vec3 ℝ} (hp : p.z = 1) :
    f.toGlobal p = f.z := by
  rw [Frame.toGlobal, h.x_zero, h.y_zero, zero_eq]
  simp only [dot_eq, hp]
  cases f.z
  simp

end Frame

namespace Sampling

open Vec3 Words WordSource

variable {z direction : Vec3 ℝ}

theorem rightHanded_frameFacing (hz : z.dot z = 1) (h : z.cross direction ≠ zero) :
    (frameFacing z direction).RightHanded := by
  have hx := dot_normalize_self _ h
  have hzx : z.dot (z.cross direction).normalize = 0 :=
    dot_normalize _ _ (dot_cross_self z direction)
  have hy := dot_self_cross _ _ hz hx hzx
  -- the second product has length one before it is scaled
  rw [frameFacing, normalize_of_unit _ hy]
  apply Frame.rightHanded_of_x_eq hy hz
  · rw [dot_comm, dot_cross_self]
  · exact (cross_cross_self _ _ hz hzx).symm

theorem degenerate_frameFacing (h : z.cross direction = zero) :
    (frameFacing z direction).Degenerate := by
  rw [frameFacing, h, normalize_zero, cross_zero, normalize_zero]
  exact ⟨rfl, rfl⟩

/-- A drawn point has length one, unless all its coordinates are zero. -/
theorem pointFrom_cases (w : Nat -> UInt32) (first : Nat) :
    (pointFrom w first : Vec3 ℝ).dot (pointFrom w first) = 1 ∨
      (pointFrom w first : Vec3 ℝ) = zero := by
  rw [pointFrom]
  generalize Vec3.mk _ _ _ = p
  by_cases hp : p = zero
  · rw [hp, normalize_zero]
    exact Or.inr rfl
  · exact Or.inl (dot_normalize_self p hp)

/-- The frame that twelve words make. -/
def frameFrom {α : Type} [Scalar α] (w : Nat -> UInt32) : Frame α :=
  frameFacing (pointFrom w 0) (pointFrom w 6)

/-- A drawn frame is orthonormal, or only its third axis is left. -/
theorem frameFrom_cases (w : Nat -> UInt32) :
    (frameFrom w : Frame ℝ).Orthonormal ∨ (frameFrom w : Frame ℝ).Degenerate := by
  by_cases h : (pointFrom w 0 : Vec3 ℝ).cross (pointFrom w 6) = zero
  · exact Or.inr (degenerate_frameFacing h)
  · apply Or.inl
    rcases pointFrom_cases w 0 with hunit | hzero
    · exact (rightHanded_frameFacing hunit h).toOrthonormal
    · rw [hzero, zero_cross] at h
      exact absurd rfl h

/-!
## Right-handed frames
-/

theorem rightHanded_frameFacing_iff (hz : z.dot z = 1) :
    (frameFacing z direction).RightHanded <-> z.cross direction ≠ zero := by
  constructor
  · intro h hzero
    exact (degenerate_frameFacing hzero).not_orthonormal h.toOrthonormal
  · exact rightHanded_frameFacing hz

theorem rightHanded_frameFrom_iff (w : Nat -> UInt32) :
    (frameFrom w : Frame ℝ).RightHanded <->
      (pointFrom w 0 : Vec3 ℝ).cross (pointFrom w 6) ≠ zero := by
  rcases pointFrom_cases w 0 with hunit | hzero
  · exact rightHanded_frameFacing_iff hunit
  · have hcross : (pointFrom w 0 : Vec3 ℝ).cross (pointFrom w 6) = zero := by
      rw [hzero, zero_cross]
    constructor
    · intro h
      exact absurd h.toOrthonormal (degenerate_frameFacing hcross).not_orthonormal
    · exact absurd hcross

/-- A random frame with a given third axis of length one is right-handed unless the
point that is drawn for it is a multiple of this axis; then the other two axes are
zero.  A frame all of whose axes are drawn is right-handed exactly if the two points
that are drawn for it are linearly independent. -/
theorem random_frames_right_handed_iff {σ : Type} [WordSource σ] (s : σ) :
    (forall z : Vec3 ℝ, z.norm = 1 -> exists (drawn : Vec3 ℝ) (f : Frame ℝ),
      point.run s = (drawn, skip 6 s) ∧ (frameAt z).run s = (f, skip 6 s) ∧
        f.z = z ∧ (f.RightHanded <-> ¬ z.Parallel drawn) ∧
        (z.Parallel drawn -> f.x = zero ∧ f.y = zero)) ∧
    (exists (first second : Vec3 ℝ) (f : Frame ℝ),
      point.run s = (first, skip 6 s) ∧
        point.run (skip 6 s) = (second, skip 12 s) ∧
        frame.run s = (f, skip 12 s) ∧
        (f.RightHanded <->
          LinearIndependent ℝ ![first.coordinates, second.coordinates])) := by
  constructor
  · intro z hz
    have hunit := (norm_eq_one_iff z).mp hz
    have hparallel := cross_eq_zero_iff z (pointFrom (stream s) 0)
      (ne_zero_of_norm_eq_one z hz)
    refine ⟨_, _, point_apply s, frameAt_apply z s, rfl, ?_, ?_⟩
    · rw [rightHanded_frameFacing_iff hunit, Ne, hparallel]
    · intro h
      have hdegenerate := degenerate_frameFacing (hparallel.mpr h)
      exact ⟨hdegenerate.x_zero, hdegenerate.y_zero⟩
  · have hsecond : point.run (skip 6 s) =
        ((pointFrom (stream s) 6 : Vec3 ℝ), skip 12 s) := by
      refine (point_apply (skip 6 s)).trans ?_
      rw [pointFrom_stream_skip, skip_skip]
    refine ⟨_, _, _, point_apply s, hsecond, frame_apply s, ?_⟩
    rw [linearIndependent_iff_cross_ne_zero]
    exact rightHanded_frameFrom_iff (stream s)

/-!
### Frames of given words
-/

theorem eq_pointFrom_of_point {σ : Type} [WordSource σ] {s t : σ} {drawn : Vec3 ℝ}
    (h : point.run s = (drawn, t)) : drawn = pointFrom (stream s) 0 :=
  congrArg Prod.fst (h.symm.trans (point_apply s))

theorem coordinate_of_middle : between (-1.0) (1.0 : ℝ) (unit 0x80000000 0) = 0 := by
  have hhalf : (unit 0x80000000 0 : ℝ) = 1 / 2 := by
    show (((67108864 : Nat) : ℝ) * (67108864.0 : ℝ) + ((0 : Nat) : ℝ)) *
      ((1.0 : ℝ) / (9007199254740992.0 : ℝ)) = _
    norm_num
  rw [hhalf, between]
  norm_num

theorem coordinate_of_zero : between (-1.0) (1.0 : ℝ) (unit 0 0) = -1 := by
  have hzero : (unit 0 0 : ℝ) = 0 := by
    show (((0 : Nat) : ℝ) * (67108864.0 : ℝ) + ((0 : Nat) : ℝ)) *
      ((1.0 : ℝ) / (9007199254740992.0 : ℝ)) = _
    norm_num
  rw [hzero, between]
  norm_num

/-- A point all of whose coordinates are drawn as zero leaves the third axis only.
Points that are drawn on the other two axes make right-handed frames. -/
theorem random_frames_of_fixed_words :
    let z : Vec3 ℝ := { x := 0, y := 0, z := 1 }
    let flat : Nat -> UInt32 := fun n => if n % 2 = 0 then 0x80000000 else 0
    let turned : Nat -> UInt32 := fun n => if n = 0 ∨ n = 8 then 0 else flat n
    z.norm = 1 ∧
      (exists f : Frame ℝ,
        (frameAt z).run (Tape.mk flat) = (f, skip 6 (Tape.mk flat)) ∧ f.z = z ∧
          ¬ f.RightHanded ∧ f.x = zero ∧ f.y = zero) ∧
      (exists f : Frame ℝ,
        (frameAt z).run (Tape.mk turned) = (f, skip 6 (Tape.mk turned)) ∧ f.z = z ∧
          f.RightHanded) ∧
      exists f : Frame ℝ,
        frame.run (Tape.mk turned) = (f, skip 12 (Tape.mk turned)) ∧ f.RightHanded := by
  intro z flat turned
  have hz : z.norm = 1 := by
    rw [norm_eq_one_iff, dot_eq]
    norm_num [z]
  have hflat : pointFrom flat 0 = (zero : Vec3 ℝ) := by
    show Vec3.normalize (Vec3.mk (between (-1.0) (1.0 : ℝ) (unit 0x80000000 0))
      (between (-1.0) (1.0 : ℝ) (unit 0x80000000 0))
      (between (-1.0) (1.0 : ℝ) (unit 0x80000000 0))) = zero
    rw [coordinate_of_middle, ← zero_eq, normalize_zero]
  have hfirst : pointFrom turned 0 = ({ x := -1, y := 0, z := 0 } : Vec3 ℝ) := by
    show Vec3.normalize (Vec3.mk (between (-1.0) (1.0 : ℝ) (unit 0 0))
      (between (-1.0) (1.0 : ℝ) (unit 0x80000000 0))
      (between (-1.0) (1.0 : ℝ) (unit 0x80000000 0))) = _
    rw [coordinate_of_middle, coordinate_of_zero,
      normalize_of_unit _ (by norm_num [dot_eq])]
  have hsecond : pointFrom turned 6 = ({ x := 0, y := -1, z := 0 } : Vec3 ℝ) := by
    show Vec3.normalize (Vec3.mk (between (-1.0) (1.0 : ℝ) (unit 0x80000000 0))
      (between (-1.0) (1.0 : ℝ) (unit 0 0))
      (between (-1.0) (1.0 : ℝ) (unit 0x80000000 0))) = _
    rw [coordinate_of_middle, coordinate_of_zero,
      normalize_of_unit _ (by norm_num [dot_eq])]
  refine ⟨hz, ?_, ?_, ?_⟩
  · rcases (random_frames_right_handed_iff (Tape.mk flat)).left z hz with
      ⟨drawn, f, hdrawn, hframe, hthird, hiff, hzero⟩
    have hparallel : z.Parallel drawn := by
      refine ⟨0, ?_⟩
      rw [eq_pointFrom_of_point hdrawn, Tape.stream_eq, hflat, zero_eq]
      simp only [map, zero_mul]
    exact ⟨f, hframe, hthird, mt hiff.mp (not_not_intro hparallel), hzero hparallel⟩
  · rcases (random_frames_right_handed_iff (Tape.mk turned)).left z hz with
      ⟨drawn, f, hdrawn, hframe, hthird, hiff, _⟩
    refine ⟨f, hframe, hthird, hiff.mpr ?_⟩
    rintro ⟨c, hparallel⟩
    rw [eq_pointFrom_of_point hdrawn, Tape.stream_eq, hfirst] at hparallel
    -- the first coordinate of every multiple of the third axis is zero
    have hx := congrArg Vec3.x hparallel
    norm_num [map, z] at hx
  · rcases (random_frames_right_handed_iff (Tape.mk turned)).right with
      ⟨first, second, f, hone, htwo, hframe, hiff⟩
    refine ⟨f, hframe, hiff.mpr ?_⟩
    rw [eq_pointFrom_of_point hone, eq_pointFrom_of_point htwo, pointFrom_stream_skip,
      Tape.stream_eq, hfirst, hsecond, linearIndependent_iff_cross_ne_zero]
    intro hcross
    have hlast := congrArg Vec3.z hcross
    norm_num [cross, zero] at hlast

end Sampling

end SphereFixtures
