import SphereFixtures.Proofs.Fractal.Radius

/-!
# Lines between the parts of an edge

Neighbouring parts of a replaced edge are kept apart by a line: everything on
one side is closer to one point than to another one.  Only the vertex where the
parts meet lies on the line, so each part stays in an open half-plane together
with that one gate.
-/

namespace SphereFixtures

namespace Plane

open Complex

/-!
## Half-planes with a gate
-/

/-- The points that are closer to one point than to another one. -/
def closerTo (z w : ℂ) : Set ℂ :=
  { p | ‖p - z‖ < ‖p - w‖ }

/-- The points closer to one point than to another one, and a single gate. -/
def gated (gate z w : ℂ) : Set ℂ :=
  insert gate (closerTo z w)

theorem norm_sub_sq_sub (p z w : ℂ) :
    ‖p - z‖ ^ 2 - ‖p - w‖ ^ 2 =
      2 * inner ℝ (w - z) p + (‖z‖ ^ 2 - ‖w‖ ^ 2) := by
  rw [norm_sub_sq_real, norm_sub_sq_real, inner_sub_left, real_inner_comm z p,
    real_inner_comm w p]
  ring

section

variable {gate z w : ℂ} (hgate : ‖gate - z‖ = ‖gate - w‖)

include hgate

/-- The gate is on the line that bounds the half-plane. -/
theorem mem_closerTo_iff {p : ℂ} :
    p ∈ closerTo z w <-> inner ℝ (w - z) p < (inner ℝ (w - z) gate : ℝ) := by
  have hp := norm_sub_sq_sub p z w
  have hline := norm_sub_sq_sub gate z w
  rw [hgate] at hline
  show ‖p - z‖ < ‖p - w‖ <-> _
  rw [← sq_lt_sq₀ (norm_nonneg _) (norm_nonneg _)]
  constructor <;> intro h <;> linarith

theorem convex_gated : Convex ℝ (gated gate z w) := by
  rw [convex_iff_forall_pos]
  intro p hp q hq s t hs ht hst
  have hinner : inner ℝ (w - z) (s • p + t • q) =
      s * inner ℝ (w - z) p + t * (inner ℝ (w - z) q : ℝ) := by
    rw [inner_add_right, real_inner_smul_right, real_inner_smul_right]
  have hweights : inner ℝ (w - z) gate =
      s * inner ℝ (w - z) gate + t * (inner ℝ (w - z) gate : ℝ) := by
    rw [← add_mul, hst, one_mul]
  rcases hp with hp | hp
  · rcases hq with hq | hq
    · rw [hp, hq, Convex.combo_self hst]
      exact Or.inl rfl
    · apply Or.inr
      rw [mem_closerTo_iff hgate] at hq ⊢
      rw [hinner, hweights, hp]
      exact add_lt_add_right (mul_lt_mul_of_pos_left hq ht) _
  · apply Or.inr
    rw [mem_closerTo_iff hgate] at hp ⊢
    have hqle : inner ℝ (w - z) q ≤ (inner ℝ (w - z) gate : ℝ) := by
      rcases hq with hq | hq
      · rw [hq]
      · exact ((mem_closerTo_iff hgate).mp hq).le
    rw [hinner, hweights]
    exact add_lt_add_of_lt_of_le (mul_lt_mul_of_pos_left hp hs)
      (mul_le_mul_of_nonneg_left hqle ht.le)

/-- Neither of the two points is on the line, unless they are the same. -/
theorem not_mem_gated (hne : z ≠ w) : w ∉ gated gate z w := by
  rintro (rfl | hw)
  · rw [sub_self, norm_zero, norm_sub_eq_zero_iff] at hgate
    exact hne hgate.symm
  · have hlt : ‖w - z‖ < ‖w - w‖ := hw
    rw [sub_self, norm_zero] at hlt
    exact absurd hlt (norm_nonneg _).not_gt

end

theorem gate_mem (gate z w : ℂ) : gate ∈ gated gate z w :=
  Or.inl rfl

theorem start_mem_closerTo {z w : ℂ} (hne : z ≠ w) : z ∈ closerTo z w := by
  show ‖z - z‖ < ‖z - w‖
  rw [sub_self, norm_zero]
  exact norm_sub_pos_iff.mpr hne

/-- Only the gate is on both sides. -/
theorem eq_gate_of_mem {gate z w p : ℂ} (hp : p ∈ gated gate z w)
    (hp' : p ∈ gated gate w z) : p = gate := by
  rcases hp with hp | hp
  · exact hp
  · rcases hp' with hp' | hp'
    · exact hp'
    · have hlt : ‖p - z‖ < ‖p - w‖ := hp
      have hlt' : ‖p - w‖ < ‖p - z‖ := hp'
      exact absurd hlt' hlt.asymm

/-!
## Distances from the inner points
-/

section

variable (t : ℝ) (z w : ℂ)

theorem norm_along_sub_start : ‖along t z w - z‖ = |t| * ‖w - z‖ := by
  rw [along, add_sub_cancel_left, norm_smul, Real.norm_eq_abs]

theorem norm_along_sub_stop : ‖along t z w - w‖ = |1 - t| * ‖w - z‖ := by
  have hsub : along t z w - w = (t - 1) • (w - z) := by
    rw [along, sub_smul, one_smul]
    ring
  rw [hsub, norm_smul, Real.norm_eq_abs, abs_sub_comm]

variable {t z w}

theorem along_mem_closerTo_start (hne : z ≠ w) (hlt : t < 1 / 2) :
    along t z w ∈ closerTo z w := by
  show ‖along t z w - z‖ < ‖along t z w - w‖
  rw [norm_along_sub_start, norm_along_sub_stop]
  have hpos : 0 < ‖w - z‖ := norm_sub_pos_iff.mpr hne.symm
  apply mul_lt_mul_of_pos_right _ hpos
  apply lt_of_lt_of_le _ (le_abs_self (1 - t))
  rw [abs_lt]
  constructor <;> linarith

theorem along_comm : along t z w = along (1 - t) w z := by
  simp only [along, Complex.real_smul]
  push_cast
  ring

theorem along_mem_closerTo_stop (hne : z ≠ w) (hlt : 1 / 2 < t) :
    along t z w ∈ closerTo w z := by
  rw [along_comm]
  exact along_mem_closerTo_start hne.symm (by linarith)

end

section

variable {e f : ℝ} (z w : ℂ)

theorem norm_apex_sub_start : ‖apex f z w - z‖ = ‖apex f z w - w‖ := by
  have hstart : apex f z w - z = (1 / 2 - f * I) * (w - z) := by
    rw [apex]
    ring
  have hstop : apex f z w - w = -(star (1 / 2 - f * I) * (w - z)) := by
    simp [apex]
    ring
  rw [hstart, hstop, norm_neg, norm_mul, norm_mul, norm_star]

variable (hnonneg : 0 ≤ e) (hf : f ^ 2 = e - 1 / 4)

include hnonneg hf

theorem norm_part {x : ℝ} (hx : (x - 1 / 2) ^ 2 = (e - 1 / 2) ^ 2) :
    ‖((x - 1 / 2 : ℝ) : ℂ) + f * I‖ = e := by
  have hsquare : (x - 1 / 2) ^ 2 + f ^ 2 = e ^ 2 := by
    rw [hx, hf]
    ring
  rw [Complex.norm_add_mul_I, hsquare, Real.sqrt_sq hnonneg]

/-- The first two parts of an edge have one length. -/
theorem norm_near_sub_start :
    ‖along e z w - z‖ = ‖along e z w - apex f z w‖ := by
  have hsub : along e z w - apex f z w =
      (((e - 1 / 2 : ℝ) : ℂ) + f * I) * (w - z) := by
    simp only [along, apex, Complex.real_smul]
    push_cast
    ring
  rw [hsub, norm_mul, norm_part hnonneg hf rfl, norm_along_sub_start,
    abs_of_nonneg hnonneg]

/-- The last two parts of an edge have one length. -/
theorem norm_far_sub_apex :
    ‖along e w z - apex f z w‖ = ‖along e w z - w‖ := by
  have hsub : along e w z - apex f z w =
      (((1 - e - 1 / 2 : ℝ) : ℂ) + f * I) * (w - z) := by
    simp only [along, apex, Complex.real_smul]
    push_cast
    ring
  have hsquare : (1 - e - 1 / 2) ^ 2 = (e - 1 / 2) ^ 2 := by ring
  rw [hsub, norm_mul, norm_part hnonneg hf hsquare, norm_along_sub_start,
    abs_of_nonneg hnonneg, norm_sub_rev]

end

/-!
## Parts of an edge in half-planes
-/

theorem apex_ne_start {f : ℝ} {z w : ℂ} (hne : z ≠ w) : apex f z w ≠ z := by
  intro heq
  have hstop := norm_apex_sub_start (f := f) z w
  rw [heq, sub_self, norm_zero, eq_comm, norm_sub_eq_zero_iff] at hstop
  exact hne hstop

theorem apex_ne_stop {f : ℝ} {z w : ℂ} (hne : z ≠ w) : apex f z w ≠ w := by
  intro heq
  have hstart := norm_apex_sub_start (f := f) z w
  rw [heq, sub_self, norm_zero, norm_sub_eq_zero_iff] at hstart
  exact hne hstart.symm

section

variable {e f : ℝ} (h : Proportions e f) {z w : ℂ} (hne : z ≠ w)

include h hne

theorem start_ne_near : z ≠ along e z w := by
  have hpos : 0 < |e| * ‖w - z‖ :=
    mul_pos (abs_pos_of_pos h.pos) (norm_sub_pos_iff.mpr hne.symm)
  rw [← norm_along_sub_start, norm_sub_pos_iff] at hpos
  exact hpos.symm

theorem near_ne_apex : along e z w ≠ apex f z w := by
  rw [← norm_sub_pos_iff, ← norm_near_sub_start z w h.nonneg h.offset_sq,
    norm_sub_pos_iff]
  exact (start_ne_near h hne).symm

theorem apex_ne_far : apex f z w ≠ along e w z := by
  rw [ne_comm, ← norm_sub_pos_iff, norm_far_sub_apex z w h.nonneg h.offset_sq,
    norm_sub_pos_iff]
  exact (start_ne_near h hne.symm).symm

theorem holds_gated_first :
    Holds (gated (along e z w) z (apex f z w)) f z (along e z w) := by
  refine ⟨Or.inr (start_mem_closerTo (apex_ne_start hne).symm), gate_mem _ _ _, ?_⟩
  rw [apex_first]
  exact Or.inr (along_mem_closerTo_start (apex_ne_start hne).symm h.lt_half)

theorem holds_gated_second :
    Holds (gated (along e z w) (apex f z w) z) f (along e z w) (apex f z w) := by
  have hlt : 1 / 2 < 1 - e := by linarith [h.lt_half]
  refine ⟨gate_mem _ _ _, Or.inr (start_mem_closerTo (apex_ne_start hne)), ?_⟩
  rw [apex_second z w h.offset_sq]
  exact Or.inr (along_mem_closerTo_stop (apex_ne_start hne).symm hlt)

theorem holds_gated_third :
    Holds (gated (along e w z) (apex f z w) w) f (apex f z w) (along e w z) := by
  have hlt : 1 / 2 < 1 - e := by linarith [h.lt_half]
  refine ⟨Or.inr (start_mem_closerTo (apex_ne_stop hne)), gate_mem _ _ _, ?_⟩
  rw [apex_third z w h.offset_sq]
  exact Or.inr (along_mem_closerTo_stop (apex_ne_stop hne).symm hlt)

theorem holds_gated_fourth :
    Holds (gated (along e w z) w (apex f z w)) f (along e w z) w := by
  refine ⟨gate_mem _ _ _, Or.inr (start_mem_closerTo (apex_ne_stop hne).symm), ?_⟩
  rw [apex_fourth]
  exact Or.inr (along_mem_closerTo_start (apex_ne_stop hne).symm h.lt_half)

/-- The first two parts stay on the side of the start, and only the middle vertex
is on the line between the halves. -/
theorem holds_gated_first_half :
    Holds (gated (apex f z w) z w) f z (along e z w) ∧
      Holds (gated (apex f z w) z w) f (along e z w) (apex f z w) := by
  have hconvex := convex_gated (norm_apex_sub_start (f := f) z w)
  have hstart : z ∈ gated (apex f z w) z w := Or.inr (start_mem_closerTo hne)
  have hnear : along e z w ∈ gated (apex f z w) z w :=
    Or.inr (along_mem_closerTo_start hne h.lt_half)
  have hmiddle := gate_mem (apex f z w) z w
  exact ⟨holds_first hconvex h.nonneg h.le_one hstart hnear hmiddle,
    holds_second hconvex h.nonneg h.le_one h.offset_sq hstart hnear hmiddle⟩

theorem holds_gated_second_half :
    Holds (gated (apex f z w) w z) f (apex f z w) (along e w z) ∧
      Holds (gated (apex f z w) w z) f (along e w z) w := by
  have hconvex := convex_gated (norm_apex_sub_start (f := f) z w).symm
  have hstop : w ∈ gated (apex f z w) w z := Or.inr (start_mem_closerTo hne.symm)
  have hfar : along e w z ∈ gated (apex f z w) w z :=
    Or.inr (along_mem_closerTo_start hne.symm h.lt_half)
  have hmiddle := gate_mem (apex f z w) w z
  exact ⟨holds_third hconvex h.nonneg h.le_one h.offset_sq hstop hfar hmiddle,
    holds_fourth hconvex h.nonneg h.le_one hstop hfar hmiddle⟩

end

/-!
## Sides of the triangle in half-planes
-/

namespace Corners

variable {z w : ℂ} (h : Corners z w)

include h

theorem inner_across_start : inner ℝ (-(z + w) - z) z = (-3 / 2 : ℝ) := by
  simp only [inner_sub_left, inner_neg_left, inner_add_left, h.inner_start,
    h.symm.inner_between]
  norm_num

theorem inner_across_stop : inner ℝ (-(z + w) - z) w = (0 : ℝ) := by
  simp only [inner_sub_left, inner_neg_left, inner_add_left, h.inner_stop,
    h.inner_between]
  norm_num

/-- A corner is as far from the second as from the third one. -/
theorem norm_sub_eq : ‖w - z‖ = ‖w - -(z + w)‖ := by
  have hdifference := norm_sub_sq_sub w z (-(z + w))
  rw [h.inner_across_stop, norm_neg, h.norm_sum, h.norm_start] at hdifference
  rw [← sq_eq_sq₀ (norm_nonneg _) (norm_nonneg _)]
  linarith

theorem start_mem_closerTo_third : z ∈ closerTo z (-(z + w)) := by
  rw [mem_closerTo_iff h.norm_sub_eq, h.inner_across_start, h.inner_across_stop]
  norm_num

theorem sum_mem_closerTo_third {k : ℝ} (hk : 0 < k) :
    k • (z + w) ∈ closerTo z (-(z + w)) := by
  rw [mem_closerTo_iff h.norm_sub_eq, real_inner_smul_right, inner_add_right,
    h.inner_across_start, h.inner_across_stop]
  linarith

end Corners

section

variable {z w : ℂ} (h : IsSide z w) {f : ℝ} (hf : 0 ≤ f)

include h hf

/-- A side stays closer to its start than to the third corner; only its stop is
as far from both. -/
theorem IsSide.holds_gated_stop : Holds (gated w z (-(z + w))) f z w := by
  have hpos : 0 < 1 / 2 + f * √3 := by positivity
  refine ⟨Or.inr h.corners.start_mem_closerTo_third, gate_mem _ _ _, ?_⟩
  rw [h.apex_eq]
  exact Or.inr (h.corners.sum_mem_closerTo_third hpos)

theorem IsSide.holds_gated_start : Holds (gated z w (-(z + w))) f z w := by
  have hpos : 0 < 1 / 2 + f * √3 := by positivity
  refine ⟨gate_mem _ _ _, ?_, ?_⟩
  · rw [add_comm]
    exact Or.inr h.corners.symm.start_mem_closerTo_third
  · rw [h.apex_eq, add_comm z]
    exact Or.inr (h.corners.symm.sum_mem_closerTo_third hpos)

end

end Plane

end SphereFixtures
