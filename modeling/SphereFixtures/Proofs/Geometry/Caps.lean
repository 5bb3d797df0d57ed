import Mathlib
import SphereFixtures.Geometry.Cap
import SphereFixtures.Proofs.Geometry.Directions

/-!
# Heights, radii and areas of caps

A cap is stored by its height.  Its radius is the angle whose cosine lies below one by
the height, so a point lies in the cap exactly if the center sees it at no more than
the radius.  Caps with the same center grow with their heights, whichever number they
are made from.
-/

namespace SphereFixtures

namespace Cap

open Vec3

/-!
## Makers
-/

/-- Whether a cap lies around the direction of a vector and has a height. -/
structure Around (cap : Cap ℝ) (center : Vec3 ℝ) (height : ℝ) : Prop where
  center_eq : cap.center = center.normalize
  height_eq : cap.height = height

variable {center : Vec3 ℝ} {height : ℝ} {cap : Cap ℝ}

theorem around_of_ofHeight (h : ofHeight center height = .ok cap) :
    cap.Around center height := by
  rw [ofHeight] at h
  split at h
  · cases h
    exact ⟨rfl, rfl⟩
  · cases h

theorem exists_around_ofHeight (center : Vec3 ℝ) (hnonneg : 0 ≤ height) (hle : height ≤ 2) :
    exists cap, ofHeight center height = .ok cap ∧ cap.Around center height := by
  have hmem : (0.0 : ℝ) ≤ height ∧ height ≤ (2.0 : ℝ) := by
    norm_num [hnonneg, hle]
  have hmade : ofHeight center height =
      .ok { center := center.normalize, height := height, height_mem := hmem } :=
    dif_pos hmem
  exact ⟨_, hmade, rfl, rfl⟩

theorem ofRadius_eq (center : Vec3 ℝ) {r : ℝ} (hr : 0 ≤ r) :
    ofRadius center r = ofHeight center (1 - Real.cos (min r Real.pi)) := by
  have hnonneg : ¬ r < (0.0 : ℝ) := by
    norm_num [hr]
  have hsphere (hpi : Real.pi ≤ r) : (2.0 : ℝ) = 1 - Real.cos (min r Real.pi) := by
    rw [min_eq_right hpi, Real.cos_pi]
    norm_num
  have hhalf (hpi : ¬ Real.pi ≤ r) :
      (2.0 : ℝ) * Scalar.square (Real.sin ((0.5 : ℝ) * r)) =
        1 - Real.cos (min r Real.pi) := by
    have hdouble : 2 * ((0.5 : ℝ) * r) = r := by ring
    have htwo : (2.0 : ℝ) = 2 := by norm_num
    rw [min_eq_left (not_le.mp hpi).le, Scalar.square, ← pow_two,
      Real.sin_sq_eq_half_sub, hdouble, htwo]
    ring
  rw [ofRadius, if_neg hnonneg]
  split
  · next hpi => exact congrArg (ofHeight center) (hsphere hpi)
  · next hpi => exact congrArg (ofHeight center) (hhalf hpi)

theorem ofArea_eq (center : Vec3 ℝ) (a : ℝ) :
    ofArea center a = ofHeight center (min a (4 * Real.pi) / (2 * Real.pi)) := by
  have hpos : 0 < 2 * Real.pi := by positivity
  have htwo : (2.0 : ℝ) = 2 := by norm_num
  have hsphere : 4 * Real.pi / (2 * Real.pi) = 2 := by
    rw [div_eq_iff hpos.ne']
    ring
  have hmost : Scalar.atMost (2.0 : ℝ) (a / ((2.0 : ℝ) * Real.pi)) =
      min a (4 * Real.pi) / (2 * Real.pi) := by
    rw [Scalar.atMost_eq_min, htwo, ← min_div_div_right hpos.le, hsphere]
  exact congrArg (ofHeight center) hmost

/-!
## Radius and area
-/

section

variable (cap : Cap ℝ)

theorem height_nonneg : 0 ≤ cap.height := by
  have h := cap.height_mem.left
  norm_num at h
  exact h

theorem height_le_two : cap.height ≤ 2 := by
  have h := cap.height_mem.right
  norm_num at h
  exact h

theorem area_eq : cap.area = 2 * Real.pi * cap.height := by
  show (2.0 : ℝ) * Real.pi * cap.height = _
  norm_num

theorem radius_eq : cap.radius = Real.arccos (1 - cap.height) := by
  have hnonneg := cap.height_nonneg
  have hle := cap.height_le_two
  have hroot : √(cap.height / 2) ≤ 1 := Real.sqrt_le_one.mpr (by linarith)
  have hhalf : cap.radius = 2 * Real.arcsin (√(cap.height / 2)) := by
    show (2.0 : ℝ) * Real.arcsin (√((0.5 : ℝ) * cap.height)) = _
    rw [show (0.5 : ℝ) * cap.height = cap.height / 2 by ring]
    norm_num
  -- the cosine of the double angle is one less twice the square of the sine
  have hcosine : Real.cos (2 * Real.arcsin (√(cap.height / 2))) = 1 - cap.height := by
    rw [Real.cos_two_mul, Real.cos_arcsin, Real.sq_sqrt, Real.sq_sqrt]
    · ring
    · linarith
    · rw [Real.sq_sqrt] <;> linarith
  have hlower : 0 ≤ Real.arcsin (√(cap.height / 2)) :=
    Real.arcsin_nonneg.mpr (Real.sqrt_nonneg _)
  have hupper := Real.arcsin_le_pi_div_two (√(cap.height / 2))
  rw [hhalf, ← hcosine, Real.arccos_cos] <;> linarith

/-!
## Membership
-/

theorem contains_iff (p : Vec3 ℝ) :
    cap.contains p = true <->
      (cap.center - p).dot (cap.center - p) ≤ 2 * cap.height := by
  have htwo : (2.0 : ℝ) = 2 := by norm_num
  rw [contains, decide_eq_true_iff, htwo]

end

/-- The chord to a point of the sphere is shorter the more of the point lies along the
axis. -/
theorem contains_iff_le_dot {p : Vec3 ℝ} (hc : cap.center.norm = 1) (hp : p.norm = 1) :
    cap.contains p = true <-> 1 - cap.height ≤ cap.center.dot p := by
  have hchord : (cap.center - p).dot (cap.center - p) = 2 - 2 * cap.center.dot p := by
    have hcenter := (norm_eq_one_iff _).mp hc
    have hpoint := (norm_eq_one_iff _).mp hp
    rw [dot_eq] at hcenter hpoint
    rw [sub_eq, dot_eq, dot_eq]
    linear_combination hcenter + hpoint
  rw [contains_iff, hchord]
  constructor <;> intro h <;> linarith

namespace Around

section

variable (h : cap.Around center height) {p : Vec3 ℝ}

include h

theorem norm_center (hcenter : center ≠ zero) : cap.center.norm = 1 := by
  rw [h.center_eq, norm_normalize _ hcenter]

theorem contains_iff_angleTo_le (hcenter : center ≠ zero) (hp : p.norm = 1) :
    cap.contains p = true <-> center.angleTo p ≤ cap.radius := by
  have hunit := h.norm_center hcenter
  have hproduct : cap.center.dot p ∈ Set.Icc (-1 : ℝ) 1 :=
    abs_le.mp (abs_dot_le_one _ _ hunit hp)
  have hdepth : 1 - cap.height ∈ Set.Icc (-1 : ℝ) 1 := by
    have hnonneg := cap.height_nonneg
    have hle := cap.height_le_two
    constructor <;> linarith
  rw [contains_iff_le_dot hunit hp, ← normalize_angleTo, ← h.center_eq,
    angleTo_eq_arccos _ _ hunit hp, radius_eq,
    Real.strictAntiOn_arccos.le_iff_ge hproduct hdepth]

theorem contains_of_height_eq_two (hcenter : center ≠ zero) (hp : p.norm = 1)
    (htwo : height = 2) : cap.contains p = true := by
  have hunit := h.norm_center hcenter
  have hproduct := abs_le.mp (abs_dot_le_one _ _ hunit hp)
  rw [contains_iff_le_dot hunit hp, h.height_eq, htwo]
  linarith

theorem contains_iff_of_height_eq_zero (hzero : height = 0) :
    cap.contains p = true <-> p = center.normalize := by
  have hnonneg := dot_self_nonneg (cap.center - p)
  rw [contains_iff, h.height_eq, hzero, mul_zero, ← h.center_eq, hnonneg.ge_iff_eq',
    dot_self_eq_zero_iff, sub_eq_zero_iff, eq_comm]

/-- A cap holds every cap around its center that is not higher. -/
theorem contains_mono {cap' : Cap ℝ} {height' : ℝ} (h' : cap'.Around center height')
    (hle : height ≤ height') (hp : cap.contains p = true) : cap'.contains p = true := by
  rw [contains_iff, h.center_eq, h.height_eq] at hp
  rw [contains_iff, h'.center_eq, h'.height_eq]
  linarith

end

end Around

/-!
## Caps of a radius and of an area
-/

theorem exists_around_ofRadius (center : Vec3 ℝ) {r : ℝ} (hr : 0 ≤ r) :
    exists cap, ofRadius center r = .ok cap ∧
      cap.Around center (1 - Real.cos (min r Real.pi)) := by
  rw [ofRadius_eq center hr]
  apply exists_around_ofHeight
  · linarith [Real.cos_le_one (min r Real.pi)]
  · linarith [Real.neg_one_le_cos (min r Real.pi)]

theorem exists_around_ofArea (center : Vec3 ℝ) {a : ℝ} (ha : 0 ≤ a) :
    exists cap, ofArea center a = .ok cap ∧
      cap.Around center (min a (4 * Real.pi) / (2 * Real.pi)) := by
  have hpi := Real.pi_pos
  rw [ofArea_eq]
  apply exists_around_ofHeight
  · positivity
  · rw [div_le_iff₀ (by positivity)]
    linarith [min_le_right a (4 * Real.pi)]

theorem Around.radius_eq_min {r : ℝ} (hr : 0 ≤ r)
    (h : cap.Around center (1 - Real.cos (min r Real.pi))) :
    cap.radius = min r Real.pi := by
  rw [radius_eq, h.height_eq, sub_sub_cancel,
    Real.arccos_cos (le_min hr Real.pi_pos.le) (min_le_right _ _)]

theorem Around.area_eq_min {a : ℝ}
    (h : cap.Around center (min a (4 * Real.pi) / (2 * Real.pi))) :
    cap.area = min a (4 * Real.pi) := by
  rw [area_eq, h.height_eq, mul_div_cancel₀]
  positivity

/-- Whichever number a cap is made from, it has that radius or that area as far as the
sphere reaches.  A point of the sphere lies in it exactly if the center sees the point
at no more than the radius, so a cap holds the caps of less radius or area around its
center. -/
theorem cap_descriptions_agree {center : Vec3 ℝ} (hcenter : center ≠ zero) :
    (forall r, 0 ≤ r -> exists cap, ofRadius center r = .ok cap ∧
      cap.radius = min r Real.pi ∧
        cap.area = 2 * Real.pi * (1 - Real.cos (min r Real.pi))) ∧
    (forall a, 0 ≤ a -> exists cap, ofArea center a = .ok cap ∧
      cap.area = min a (4 * Real.pi)) ∧
    (forall h, 0 ≤ h -> h ≤ 2 -> exists cap, ofHeight center h = .ok cap ∧
      cap.height = h ∧ forall p, p.norm = 1 ->
        (cap.contains p = true <-> center.angleTo p ≤ cap.radius) ∧
        (h = 2 -> cap.contains p = true) ∧
        (h = 0 -> (cap.contains p = true <-> p = center.normalize))) ∧
    (forall r r', 0 ≤ r -> r ≤ r' -> forall cap cap',
      ofRadius center r = .ok cap -> ofRadius center r' = .ok cap' ->
        forall p, cap.contains p = true -> cap'.contains p = true) ∧
    (forall a a', 0 ≤ a -> a ≤ a' -> forall cap cap',
      ofArea center a = .ok cap -> ofArea center a' = .ok cap' ->
        forall p, cap.contains p = true -> cap'.contains p = true) := by
  refine ⟨?_, ?_, ?_, ?_, ?_⟩
  · intro r hr
    rcases exists_around_ofRadius center hr with ⟨cap, hcap, haround⟩
    refine ⟨cap, hcap, haround.radius_eq_min hr, ?_⟩
    rw [area_eq, haround.height_eq]
  · intro a ha
    rcases exists_around_ofArea center ha with ⟨cap, hcap, haround⟩
    exact ⟨cap, hcap, haround.area_eq_min⟩
  · intro h hnonneg hle
    rcases exists_around_ofHeight center hnonneg hle with ⟨cap, hcap, haround⟩
    refine ⟨cap, hcap, haround.height_eq, ?_⟩
    intro p hp
    exact ⟨haround.contains_iff_angleTo_le hcenter hp,
      haround.contains_of_height_eq_two hcenter hp,
      haround.contains_iff_of_height_eq_zero⟩
  · intro r r' hr hle cap cap' hcap hcap' p
    rw [ofRadius_eq center hr] at hcap
    rw [ofRadius_eq center (hr.trans hle)] at hcap'
    apply (around_of_ofHeight hcap).contains_mono (around_of_ofHeight hcap')
    have hcosine : Real.cos (min r' Real.pi) ≤ Real.cos (min r Real.pi) :=
      Real.cos_le_cos_of_nonneg_of_le_pi (le_min hr Real.pi_pos.le) (min_le_right _ _)
        (min_le_min_right _ hle)
    linarith
  · intro a a' _ hle cap cap' hcap hcap' p
    rw [ofArea_eq] at hcap hcap'
    apply (around_of_ofHeight hcap).contains_mono (around_of_ofHeight hcap')
    have hpi := Real.pi_pos
    gcongr

/-- A cap with a right angle as radius is half of the sphere, and the whole sphere
holds the point opposite to the center. -/
theorem half_sphere_and_sphere :
    let center : Vec3 ℝ := { x := 0, y := 0, z := 2 }
    let opposite : Vec3 ℝ := { x := 0, y := 0, z := -1 }
    center ≠ zero ∧ opposite.norm = 1 ∧
      (exists cap, ofRadius center (Real.pi / 2) = .ok cap ∧
        cap.radius = Real.pi / 2 ∧ cap.area = 2 * Real.pi) ∧
      (exists cap, ofArea center 20 = .ok cap ∧ cap.area = 4 * Real.pi) ∧
      (exists cap, ofHeight center 2 = .ok cap ∧ cap.contains opposite = true) := by
  intro center opposite
  have hpi := Real.pi_pos
  have hcenter : center ≠ zero := by
    rw [← norm_pos_iff, norm_eq, dot_eq]
    norm_num [center]
  have hopposite : opposite.norm = 1 := by
    rw [norm_eq_one_iff, dot_eq]
    norm_num [opposite]
  rcases cap_descriptions_agree hcenter with ⟨hradius, harea, hheight, _, _⟩
  rcases hradius (Real.pi / 2) (by positivity) with ⟨half, hhalf, hangle, hsize⟩
  rcases harea 20 (by norm_num) with ⟨sphere, hsphere, hwhole⟩
  rcases hheight 2 (by norm_num) le_rfl with ⟨cap, hcap, _, hcontains⟩
  rw [min_eq_left (by linarith)] at hangle hsize
  rw [min_eq_right (by linarith [Real.pi_lt_d2])] at hwhole
  rw [Real.cos_pi_div_two, sub_zero, mul_one] at hsize
  exact ⟨hcenter, hopposite, ⟨half, hhalf, hangle, hsize⟩, ⟨sphere, hsphere, hwhole⟩,
    cap, hcap, (hcontains opposite hopposite).right.left rfl⟩

end Cap

end SphereFixtures
