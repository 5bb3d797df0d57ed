import SphereFixtures.Proofs.Geometry.AxisFrames
import SphereFixtures.Proofs.Geometry.Caps
import SphereFixtures.Proofs.Random.Units

/-!
# Points drawn from caps

A point of a cap is drawn by its height below the top and by its direction around the
axis.  It is of length one and as far below the top as the height says, so the smaller
caps around the same center hold exactly the points of the smaller heights, and each
of them gets as much of the draws as of the area.
-/

namespace SphereFixtures

namespace Sampling

open Vec3 Words WordSource

/-!
## Points below the top
-/

/-- The point of a circle around the third axis, a height below the pole. -/
def circlePoint {α : Type} [Scalar α] (height theta : α) : Vec3 α :=
  let radius := Scalar.sqrt (height * (2.0 - height))
  { x := Scalar.cos theta * radius, y := Scalar.sin theta * radius, z := 1.0 - height }

section

variable {cap : Cap ℝ} {height : ℝ}

/-- The radius of a circle is a square root of no negative number. -/
theorem radicand_nonneg (hnonneg : 0 ≤ height) (hle : height ≤ 2) :
    0 ≤ height * (2 - height) :=
  mul_nonneg hnonneg (sub_nonneg.mpr hle)

theorem circlePoint_eq (height theta : ℝ) :
    circlePoint height theta =
      { x := Real.cos theta * √(height * (2 - height))
        y := Real.sin theta * √(height * (2 - height))
        z := 1 - height } := by
  have hone : (1.0 : ℝ) = 1 := by norm_num
  have htwo : (2.0 : ℝ) = 2 := by norm_num
  rw [circlePoint, hone, htwo]
  rfl

theorem norm_circlePoint (hnonneg : 0 ≤ height) (hle : height ≤ 2) (theta : ℝ) :
    (circlePoint height theta).norm = 1 := by
  have hroot := Real.sq_sqrt (radicand_nonneg hnonneg hle)
  have hcircle := Real.sin_sq_add_cos_sq theta
  rw [norm_eq_one_iff, circlePoint_eq, dot_eq]
  linear_combination √(height * (2 - height)) ^ 2 * hcircle + hroot

variable (hcenter : cap.center.norm = 1) (hnonneg : 0 ≤ height) (hle : height ≤ 2)
  (theta : ℝ)

include hcenter hnonneg hle

/-- The point has length one before it is scaled. -/
theorem pointBelowTop_eq :
    pointBelowTop cap height theta =
      (Frame.ofAxis cap.center).toGlobal (circlePoint height theta) := by
  have hframe := Frame.rightHanded_ofAxis hcenter
  show ((Frame.ofAxis cap.center).toGlobal (circlePoint height theta)).normalize = _
  apply normalize_of_unit
  rw [← norm_eq_one_iff, hframe.norm_toGlobal, norm_circlePoint hnonneg hle]

theorem norm_pointBelowTop : (pointBelowTop cap height theta).norm = 1 := by
  rw [pointBelowTop_eq hcenter hnonneg hle,
    (Frame.rightHanded_ofAxis hcenter).norm_toGlobal, norm_circlePoint hnonneg hle]

theorem dot_pointBelowTop :
    cap.center.dot (pointBelowTop cap height theta) = 1 - height := by
  have hdepth : (circlePoint height theta).z = 1 - height :=
    congrArg Vec3.z (circlePoint_eq height theta)
  rw [pointBelowTop_eq hcenter hnonneg hle, ← hdepth]
  exact (Frame.rightHanded_ofAxis hcenter).dot_z_toGlobal _

/-- A cap with the same center holds the point if it reaches down to it. -/
theorem contains_pointBelowTop_iff {inner : Cap ℝ} (hsame : inner.center = cap.center) :
    inner.contains (pointBelowTop cap height theta) = true <->
      height ≤ inner.height := by
  have hpoint := norm_pointBelowTop hcenter hnonneg hle theta
  have hinner : inner.center.norm = 1 := by rw [hsame, hcenter]
  rw [Cap.contains_iff_le_dot hinner hpoint, hsame,
    dot_pointBelowTop hcenter hnonneg hle, sub_le_sub_iff_left]

end

/-!
## Draws
-/

/-- The point of a cap that four words make. -/
def pointInCapFrom {α : Type} [Scalar α] (cap : Cap α)
    (first second third fourth : UInt32) : Vec3 α :=
  pointBelowTop cap (unit first second * cap.height)
    (2.0 * Scalar.pi * unit third fourth)

section

variable (cap : Cap ℝ) (first second : UInt32)

theorem drawn_height_nonneg : 0 ≤ unit first second * cap.height :=
  mul_nonneg (unit_nonneg first second) cap.height_nonneg

theorem drawn_height_le : unit first second * cap.height ≤ cap.height :=
  mul_le_of_le_one_left cap.height_nonneg (unit_lt_one first second).le

theorem drawn_height_le_two : unit first second * cap.height ≤ 2 :=
  (drawn_height_le cap first second).trans cap.height_le_two

end

section

variable {cap inner : Cap ℝ} (hcenter : cap.center.norm = 1)
  (hsame : inner.center = cap.center)

include hcenter hsame

theorem contains_pointInCapFrom_iff (first second third fourth : UInt32) :
    inner.contains (pointInCapFrom cap first second third fourth) = true <->
      unit first second * cap.height ≤ inner.height :=
  contains_pointBelowTop_iff hcenter (drawn_height_nonneg cap first second)
    (drawn_height_le_two cap first second) _ hsame

/-- Of the pairs of words that choose the height as many lead into a smaller cap as
there are multiples of `2 ^ -53` up to its part of the area. -/
theorem pairs_contains (hpos : 0 < cap.height) (third fourth : UInt32) :
    pairs (fun first second =>
        inner.contains (pointInCapFrom cap first second third fourth) = true) =
      min (2 ^ 53) (⌊2 ^ 53 * (inner.area / cap.area)⌋₊ + 1) * 2 ^ 11 := by
  have hpi := Real.pi_pos
  have hshare : inner.area / cap.area = inner.height / cap.height := by
    rw [inner.area_eq, cap.area_eq, mul_div_mul_left _ _ (by positivity)]
  simp only [contains_pointInCapFrom_iff hcenter hsame, ← le_div_iff₀ hpos]
  rw [hshare]
  exact pairs_unit_le (div_nonneg inner.height_nonneg hpos.le)

end

/-- A point of a cap takes four words, and whichever they are, it is a point of the
sphere, no square root of a negative number is taken for it, and the cap holds it.
The first two words are a fraction, and a smaller cap around the same center holds the
point exactly if this fraction of the drawn cap's height is at most its own height.  So
whatever direction the other two words give, the draws that lead into the smaller cap
are those of the fractions up to its part of the area. -/
theorem cap_points_even_by_area {center : Vec3 ℝ} (hcenter : center ≠ zero) {H : ℝ}
    (hnonneg : 0 ≤ H) (hle : H ≤ 2) :
    exists cap, Cap.ofHeight center H = .ok cap ∧
      (forall (σ : Type) [WordSource σ] (s : σ),
        (pointInCap cap).run s =
          (pointInCapFrom cap (stream s 0) (stream s 1) (stream s 2) (stream s 3),
            skip 4 s)) ∧
      (forall first second third fourth : UInt32,
        let u : ℝ := unit first second
        let p := pointInCapFrom cap first second third fourth
        0 ≤ u * H * (2 - u * H) ∧ p.norm = 1 ∧ cap.contains p = true) ∧
      (forall h, 0 ≤ h -> h ≤ 2 -> exists inner, Cap.ofHeight center h = .ok inner ∧
        (forall first second third fourth : UInt32,
          let u : ℝ := unit first second
          let p := pointInCapFrom cap first second third fourth
          (inner.contains p = true <-> u * H ≤ h) ∧
            (inner.contains p = true <-> u * cap.area ≤ inner.area)) ∧
        (0 < H -> forall third fourth : UInt32,
          pairs (fun first second =>
              inner.contains (pointInCapFrom cap first second third fourth) = true) =
            min (2 ^ 53) (⌊2 ^ 53 * (inner.area / cap.area)⌋₊ + 1) * 2 ^ 11)) := by
  rcases Cap.exists_around_ofHeight center hnonneg hle with ⟨cap, hcap, haround⟩
  have hunit := haround.norm_center hcenter
  have hheight := haround.height_eq
  refine ⟨cap, hcap, fun σ _ s => pointInCap_apply cap s, ?_, ?_⟩
  · intro first second third fourth u p
    have hdrawn := drawn_height_nonneg cap first second
    have htwo := drawn_height_le_two cap first second
    have hradicand := radicand_nonneg hdrawn htwo
    rw [hheight] at hradicand
    exact ⟨hradicand, norm_pointBelowTop hunit hdrawn htwo _,
      (contains_pointInCapFrom_iff hunit rfl _ _ _ _).mpr
        (drawn_height_le cap first second)⟩
  · intro h hh hh2
    rcases Cap.exists_around_ofHeight center hh hh2 with ⟨inner, hinner, hinside⟩
    have hsame : inner.center = cap.center := by
      rw [hinside.center_eq, haround.center_eq]
    refine ⟨inner, hinner, ?_, ?_⟩
    · intro first second third fourth u p
      have hiff := contains_pointInCapFrom_iff hunit hsame first second third fourth
      have harea : u * cap.area ≤ inner.area <-> u * cap.height ≤ inner.height := by
        have hpi := Real.pi_pos
        rw [cap.area_eq, inner.area_eq, mul_left_comm,
          mul_le_mul_iff_right₀ (by positivity)]
      constructor
      · rw [hiff, hheight, hinside.height_eq]
      · rw [hiff, harea]
    · intro hpos third fourth
      exact pairs_contains hunit hsame (hheight ▸ hpos) third fourth

/-- A cap of a third of the height gets a third of the fractions, rounded up. -/
theorem third_of_cap :
    let center : Vec3 ℝ := { x := 0, y := 2, z := 2 }
    center ≠ zero ∧ (0 : ℝ) ≤ 3 / 2 ∧ (3 / 2 : ℝ) ≤ 2 ∧ (0 : ℝ) ≤ 1 / 2 ∧ (1 / 2 : ℝ) ≤ 2 ∧
      exists cap inner, Cap.ofHeight center (3 / 2) = .ok cap ∧
        Cap.ofHeight center (1 / 2) = .ok inner ∧
        cap.contains (pointInCapFrom cap 0xFFFFFFFF 0xFFFFFFFF 0 0) = true ∧
        pairs (fun first second =>
          inner.contains (pointInCapFrom cap first second 0 0) = true) =
            (2 ^ 53 / 3 + 1) * 2 ^ 11 := by
  intro center
  have hpi := Real.pi_pos
  have hcenter : center ≠ zero := by
    rw [← norm_pos_iff, norm_eq, dot_eq]
    norm_num [center]
  have hnonneg : (0 : ℝ) ≤ 3 / 2 := by norm_num
  have hle : (3 / 2 : ℝ) ≤ 2 := by norm_num
  have hinnerNonneg : (0 : ℝ) ≤ 1 / 2 := by norm_num
  have hinnerLe : (1 / 2 : ℝ) ≤ 2 := by norm_num
  rcases cap_points_even_by_area hcenter hnonneg hle with
    ⟨cap, hcap, _, hpoints, hinners⟩
  rcases hinners (1 / 2) hinnerNonneg hinnerLe with ⟨inner, hinner, _, hcount⟩
  have hshare : 2 ^ 53 * (inner.area / cap.area) = ((2 ^ 53 : Nat) : ℝ) / (3 : Nat) := by
    rw [inner.area_eq, cap.area_eq, (Cap.around_of_ofHeight hinner).height_eq,
      (Cap.around_of_ofHeight hcap).height_eq, mul_div_mul_left _ _ (by positivity)]
    norm_num
  refine ⟨hcenter, hnonneg, hle, hinnerNonneg, hinnerLe, cap, inner, hcap, hinner,
    (hpoints _ _ _ _).right.right, ?_⟩
  rw [hcount (by norm_num) 0 0, hshare, Nat.floor_div_eq_div, min_eq_right (by norm_num)]

end Sampling

end SphereFixtures
