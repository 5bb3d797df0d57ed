import SphereFixtures.Proofs.Random.Units
import SphereFixtures.Proofs.Session.Answers

/-!
# Rectangles across the antimeridian

The longitudes of a rectangle are those on the way east from its lower end, as far as
its length.  A way that crosses the antimeridian goes on a full turn lower, so one
statement holds whichever of the two ends is the larger number.  A drawn point has a
longitude on this way and a latitude that is chosen by its sine.
-/

namespace SphereFixtures

/-- A longitude beyond half a turn is written a full turn lower. -/
def withinTurn {α : Type} [Scalar α] (lng : α) : α :=
  if Scalar.pi < lng then lng - 2.0 * Scalar.pi else lng

theorem withinTurn_eq (lng : ℝ) :
    withinTurn lng = if Real.pi < lng then lng - 2 * Real.pi else lng := by
  have htwo : (2.0 : ℝ) = 2 := by norm_num
  rw [withinTurn, htwo]
  rfl

namespace LatLngRect

open Vec3

/-!
## Bounds
-/

theorem ofBounds_eq_ok_iff {α : Type} [Scalar α] {latLo latHi lngLo lngHi : α}
    {r : LatLngRect α} :
    ofBounds latLo latHi lngLo lngHi = .ok r <->
      r = { latLo := latLo, latHi := latHi, lngLo := lngLo, lngHi := lngHi } ∧
        r.LatitudesValid ∧ ¬ r.LongitudesBeyond := by
  constructor
  · intro h
    simp only [ofBounds] at h
    split at h
    · cases h
    · next hlatitudes =>
        split at h
        · cases h
        · next hlongitudes =>
            cases h
            exact ⟨rfl, not_not.mp hlatitudes, hlongitudes⟩
  · rintro ⟨rfl, hlatitudes, hlongitudes⟩
    simp only [ofBounds]
    rw [if_neg (not_not_intro hlatitudes), if_neg hlongitudes]

/-- Whether the bounds lie between the poles and at most half a turn away from zero. -/
structure OnSphere {α : Type} [Scalar α] (r : LatLngRect α) : Prop where
  latitudes : r.LatitudesValid
  lngLo_mem : -Scalar.pi ≤ r.lngLo ∧ r.lngLo ≤ Scalar.pi
  lngHi_mem : -Scalar.pi ≤ r.lngHi ∧ r.lngHi ≤ Scalar.pi

theorem onSphere_of_ofBounds {latLo latHi lngLo lngHi : ℝ} {r : LatLngRect ℝ}
    (h : ofBounds latLo latHi lngLo lngHi = .ok r) : r.OnSphere := by
  rcases ofBounds_eq_ok_iff.mp h with ⟨_, hlatitudes, hlongitudes⟩
  rw [LongitudesBeyond, not_or] at hlongitudes
  exact
    { latitudes := hlatitudes
      lngLo_mem := abs_le.mp (not_lt.mp hlongitudes.left)
      lngHi_mem := abs_le.mp (not_lt.mp hlongitudes.right) }

namespace OnSphere

variable {r : LatLngRect ℝ} (h : r.OnSphere)

include h

theorem latLo_le_latHi : r.latLo ≤ r.latHi :=
  h.latitudes.right.left

theorem south_le : -(Real.pi / 2) ≤ r.latLo := by
  have hsouth : -Real.pi / (2.0 : ℝ) ≤ r.latLo := h.latitudes.left
  linarith

theorem le_north : r.latHi ≤ Real.pi / 2 := by
  have hnorth : r.latHi ≤ Real.pi / (2.0 : ℝ) := h.latitudes.right.right
  linarith

theorem neg_pi_le_lngLo : -Real.pi ≤ r.lngLo :=
  h.lngLo_mem.left

theorem lngLo_le_pi : r.lngLo ≤ Real.pi :=
  h.lngLo_mem.right

theorem neg_pi_le_lngHi : -Real.pi ≤ r.lngHi :=
  h.lngHi_mem.left

theorem lngHi_le_pi : r.lngHi ≤ Real.pi :=
  h.lngHi_mem.right

end OnSphere

/-!
## Longitudes
-/

section

variable (r : LatLngRect ℝ)

theorem lngLength_eq :
    r.lngLength =
      if r.lngLo ≤ r.lngHi then r.lngHi - r.lngLo
      else r.lngHi - r.lngLo + 2 * Real.pi := by
  have htwo : (2.0 : ℝ) = 2 := by norm_num
  rw [lngLength, htwo]
  rfl

theorem containsLat_iff (lat : ℝ) :
    r.containsLat lat = true <-> r.latLo ≤ lat ∧ lat ≤ r.latHi := by
  rw [containsLat, Bool.and_eq_true, decide_eq_true_iff, decide_eq_true_iff]

theorem containsLng_iff (lng : ℝ) :
    r.containsLng lng = true <->
      if r.lngLo ≤ r.lngHi then r.lngLo ≤ lng ∧ lng ≤ r.lngHi
      else r.lngLo ≤ lng ∨ lng ≤ r.lngHi := by
  rw [containsLng]
  split
  · rw [Bool.and_eq_true, decide_eq_true_iff, decide_eq_true_iff]
  · rw [Bool.or_eq_true, decide_eq_true_iff, decide_eq_true_iff]

end

namespace OnSphere

variable {r : LatLngRect ℝ} (h : r.OnSphere)

include h

theorem lngLength_nonneg : 0 ≤ r.lngLength := by
  have hlower := h.lngLo_le_pi
  have hupper := h.neg_pi_le_lngHi
  rw [lngLength_eq]
  split <;> linarith

theorem lngLength_le : r.lngLength ≤ 2 * Real.pi := by
  have hlower := h.neg_pi_le_lngLo
  have hupper := h.lngHi_le_pi
  rw [lngLength_eq]
  split <;> linarith

/-- The way east from the lower end ends at the upper one, or a full turn behind it. -/
theorem containsLng_iff_exists {lng : ℝ} (hlow : -Real.pi < lng)
    (hhigh : lng ≤ Real.pi) :
    r.containsLng lng = true <->
      exists t, 0 ≤ t ∧ t ≤ r.lngLength ∧
        (lng = r.lngLo + t ∨ lng = r.lngLo + t - 2 * Real.pi) := by
  have hlower := h.lngLo_le_pi
  have hgreatest := h.lngHi_le_pi
  have hleast := h.neg_pi_le_lngHi
  rw [containsLng_iff, lngLength_eq]
  constructor
  · intro hlng
    split at hlng
    · next hplain =>
        rw [if_pos hplain]
        exact ⟨lng - r.lngLo, by linarith, by linarith, Or.inl (by ring)⟩
    · next hcrossing =>
        rw [if_neg hcrossing]
        rcases hlng with heast | hwest
        · exact ⟨lng - r.lngLo, by linarith, by linarith, Or.inl (by ring)⟩
        · exact ⟨lng - r.lngLo + 2 * Real.pi, by linarith, by linarith,
            Or.inr (by ring)⟩
  · rintro ⟨t, hnonneg, hle, heq⟩
    split at hle
    · next hplain =>
        rw [if_pos hplain]
        -- a full turn lower there is no longitude left
        rcases heq with heast | hturned
        · constructor <;> linarith
        · linarith
    · next hcrossing =>
        rw [if_neg hcrossing]
        rcases heq with heast | hturned
        · exact Or.inl (by linarith)
        · exact Or.inr (by linarith)

theorem containsLng_withinTurn {t : ℝ} (hnonneg : 0 ≤ t) (hle : t ≤ r.lngLength) :
    r.containsLng (withinTurn (r.lngLo + t)) = true := by
  have hupper := h.lngHi_le_pi
  rw [lngLength_eq] at hle
  rw [containsLng_iff, withinTurn_eq]
  split at hle
  · next hplain =>
      have hwithin : ¬ Real.pi < r.lngLo + t := by linarith
      rw [if_pos hplain, if_neg hwithin]
      constructor <;> linarith
  · next hcrossing =>
      rw [if_neg hcrossing]
      split
      · exact Or.inr (by linarith)
      · exact Or.inl (by linarith)

theorem le_pi_of_withinTurn {t : ℝ} (hle : t ≤ r.lngLength) :
    withinTurn (r.lngLo + t) ≤ Real.pi := by
  have hlower := h.lngLo_le_pi
  have hlength := h.lngLength_le
  rw [withinTurn_eq]
  split <;> linarith

theorem neg_pi_le_withinTurn {t : ℝ} (hnonneg : 0 ≤ t) :
    -Real.pi ≤ withinTurn (r.lngLo + t) := by
  have hlower := h.neg_pi_le_lngLo
  rw [withinTurn_eq]
  split <;> linarith

end OnSphere

/-!
## Points
-/

theorem ofLatLng_eq (lat lng : ℝ) :
    ofLatLng lat lng =
      { x := Real.cos lat * Real.cos lng
        y := Real.cos lat * Real.sin lng
        z := Real.sin lat } := rfl

theorem ofLatLng_withinTurn (lat lng : ℝ) :
    ofLatLng lat (withinTurn lng) = ofLatLng lat lng := by
  rw [withinTurn_eq]
  split
  · rw [ofLatLng_eq, ofLatLng_eq, Real.cos_sub_two_pi, Real.sin_sub_two_pi]
  · rfl

/-- The angle of a point of the plane in polar coordinates. -/
theorem arg_polar {s theta : ℝ} (hs : 0 < s) (hlow : -Real.pi < theta)
    (hhigh : theta ≤ Real.pi) :
    Complex.arg ⟨s * Real.cos theta, s * Real.sin theta⟩ = theta := by
  have hpolar : (⟨s * Real.cos theta, s * Real.sin theta⟩ : ℂ) =
      s * (Complex.cos theta + Complex.sin theta * Complex.I) := by
    rw [← Complex.ofReal_cos, ← Complex.ofReal_sin, ← Complex.mk_eq_add_mul_I]
    apply Complex.ext
    · rw [Complex.re_ofReal_mul]
    · rw [Complex.im_ofReal_mul]
  rw [hpolar]
  exact Complex.arg_mul_cos_add_sin_mul_I hs ⟨hlow, hhigh⟩

/-- Between the poles both angles of a point are read back from its coordinates. -/
theorem contains_ofLatLng (r : LatLngRect ℝ) {lat lng : ℝ}
    (hsouth : -(Real.pi / 2) < lat) (hnorth : lat < Real.pi / 2)
    (hlow : -Real.pi < lng) (hhigh : lng ≤ Real.pi) :
    r.contains (ofLatLng lat lng) = (r.containsLat lat && r.containsLng lng) := by
  have hpi := Real.pi_pos
  have hcosine : 0 < Real.cos lat := Real.cos_pos_of_mem_Ioo ⟨hsouth, hnorth⟩
  have hdistance : √((Real.cos lat * Real.cos lng) ^ 2 +
      (Real.cos lat * Real.sin lng) ^ 2) = Real.cos lat := by
    rw [mul_pow, mul_pow, ← mul_add, Real.cos_sq_add_sin_sq, mul_one,
      Real.sqrt_sq hcosine.le]
  have hlat : Complex.arg ⟨Real.cos lat, Real.sin lat⟩ = lat := by
    have harg := @arg_polar 1 lat one_pos (by linarith) (by linarith)
    rwa [one_mul, one_mul] at harg
  show (r.containsLat (Complex.arg ⟨√((Real.cos lat * Real.cos lng) ^ 2 +
    (Real.cos lat * Real.sin lng) ^ 2), Real.sin lat⟩) &&
      r.containsLng
        (Complex.arg ⟨Real.cos lat * Real.cos lng, Real.cos lat * Real.sin lng⟩)) = _
  rw [hdistance, hlat, arg_polar hcosine hlow hhigh]

end LatLngRect

/-!
## Drawn points
-/

namespace Sampling

open Words WordSource LatLngRect

/-- The point of a rectangle that four words make. -/
def pointInRectFrom {α : Type} [Scalar α] (rect : LatLngRect α)
    (first second third fourth : UInt32) : Vec3 α :=
  Vec3.ofLatLng (latitudeAt rect (unit first second))
    (longitudeAt rect (unit third fourth))

theorem latitudeAt_eq (r : LatLngRect ℝ) (u : ℝ) :
    latitudeAt r u =
      Real.arcsin (Real.sin r.latLo + u * (Real.sin r.latHi - Real.sin r.latLo)) := rfl

section

variable {r : LatLngRect ℝ} (h : r.OnSphere) {u : ℝ} (hnonneg : 0 ≤ u) (hle : u ≤ 1)

include h hnonneg hle

theorem sine_mem :
    Real.sin r.latLo ≤ Real.sin r.latLo + u * (Real.sin r.latHi - Real.sin r.latLo) ∧
      Real.sin r.latLo + u * (Real.sin r.latHi - Real.sin r.latLo) ≤
        Real.sin r.latHi := by
  have hsines : Real.sin r.latLo ≤ Real.sin r.latHi :=
    Real.sin_le_sin_of_le_of_le_pi_div_two h.south_le h.le_north h.latLo_le_latHi
  constructor <;> nlinarith

theorem sine_mem_Icc :
    Real.sin r.latLo + u * (Real.sin r.latHi - Real.sin r.latLo) ∈
      Set.Icc (-1 : ℝ) 1 := by
  rcases sine_mem h hnonneg hle with ⟨hlower, hupper⟩
  exact ⟨(Real.neg_one_le_sin _).trans hlower, hupper.trans (Real.sin_le_one _)⟩

/-- The sine grows with the latitude, so up to a latitude are the fractions whose sine
is at most its own. -/
theorem latitudeAt_le_iff {phi : ℝ} (hlower : r.latLo ≤ phi) (hupper : phi ≤ r.latHi) :
    latitudeAt r u ≤ phi <->
      Real.sin r.latLo + u * (Real.sin r.latHi - Real.sin r.latLo) ≤ Real.sin phi := by
  rw [latitudeAt_eq]
  exact Real.arcsin_le_iff_le_sin (sine_mem_Icc h hnonneg hle)
    ⟨h.south_le.trans hlower, hupper.trans h.le_north⟩

theorem containsLat_latitudeAt : r.containsLat (latitudeAt r u) = true := by
  rcases sine_mem h hnonneg hle with ⟨hlower, hupper⟩
  rw [containsLat_iff]
  constructor
  · rw [latitudeAt_eq]
    exact (Real.le_arcsin_iff_sin_le ⟨h.south_le, h.latLo_le_latHi.trans h.le_north⟩
      (sine_mem_Icc h hnonneg hle)).mpr hlower
  · exact (latitudeAt_le_iff h hnonneg hle h.latLo_le_latHi le_rfl).mpr hupper

theorem containsLng_longitudeAt :
    r.containsLng (withinTurn (longitudeAt r u)) = true :=
  h.containsLng_withinTurn (mul_nonneg hnonneg h.lngLength_nonneg)
    (mul_le_of_le_one_left h.lngLength_nonneg hle)

/-- A pole has every longitude but shows none of them, and half a turn west is half a
turn east; nothing else keeps a drawn point out of its rectangle. -/
theorem contains_of_drawn {v : ℝ} (hv : 0 ≤ v) (hv1 : v ≤ 1)
    (hpole : |latitudeAt r u| < Real.pi / 2)
    (hturn : withinTurn (longitudeAt r v) ≠ -Real.pi) :
    r.contains (Vec3.ofLatLng (latitudeAt r u) (longitudeAt r v)) = true := by
  rcases abs_lt.mp hpole with ⟨hsouth, hnorth⟩
  have hlow : -Real.pi < withinTurn (longitudeAt r v) :=
    lt_of_le_of_ne
      (h.neg_pi_le_withinTurn (mul_nonneg hv h.lngLength_nonneg)) hturn.symm
  have hhigh : withinTurn (longitudeAt r v) ≤ Real.pi :=
    h.le_pi_of_withinTurn (mul_le_of_le_one_left h.lngLength_nonneg hv1)
  rw [← ofLatLng_withinTurn, contains_ofLatLng r hsouth hnorth hlow hhigh,
    containsLat_latitudeAt h hnonneg hle, containsLng_longitudeAt h hv hv1]
  rfl

end

/-- The length of a rectangle is at most a full turn, and the longitudes that it holds
are those on the way of this length from its lower end to the east, whether the way
crosses the antimeridian or not.  A point of it takes four words, and whichever they
are, the latitude and the longitude that they make pass the tests of the rectangle, as
does the point itself off the poles and off half a turn to the west.  The latitude is
drawn evenly by its sine. -/
theorem rectangles_hold_their_draws {latLo latHi lngLo lngHi : ℝ} {r : LatLngRect ℝ}
    (h : LatLngRect.ofBounds latLo latHi lngLo lngHi = .ok r) :
    (0 ≤ r.lngLength ∧ r.lngLength ≤ 2 * Real.pi) ∧
    (forall lng, -Real.pi < lng -> lng ≤ Real.pi ->
      (r.containsLng lng = true <->
        exists t, 0 ≤ t ∧ t ≤ r.lngLength ∧
          (lng = lngLo + t ∨ lng = lngLo + t - 2 * Real.pi))) ∧
    (forall (σ : Type) [WordSource σ] (s : σ),
      (pointInRect r).run s =
        (pointInRectFrom r (stream s 0) (stream s 1) (stream s 2) (stream s 3),
          skip 4 s)) ∧
    (forall first second third fourth : UInt32,
      let u : ℝ := unit first second
      let lat := latitudeAt r u
      let lng := withinTurn (longitudeAt r (unit third fourth))
      r.containsLat lat = true ∧ r.containsLng lng = true ∧
        (forall phi, latLo ≤ phi -> phi ≤ latHi ->
          (lat ≤ phi <->
            Real.sin latLo + u * (Real.sin latHi - Real.sin latLo) ≤ Real.sin phi)) ∧
        (|lat| < Real.pi / 2 -> lng ≠ -Real.pi ->
          r.contains (pointInRectFrom r first second third fourth) = true)) := by
  have hsphere := onSphere_of_ofBounds h
  rcases ofBounds_eq_ok_iff.mp h with ⟨rfl, _⟩
  refine ⟨⟨hsphere.lngLength_nonneg, hsphere.lngLength_le⟩, ?_,
    fun σ _ s => pointInRect_apply _ s, ?_⟩
  · intro lng hlow hhigh
    exact hsphere.containsLng_iff_exists hlow hhigh
  · intro first second third fourth u lat lng
    have hu := unit_nonneg first second
    have hu1 := (unit_lt_one first second).le
    have hv := unit_nonneg third fourth
    have hv1 := (unit_lt_one third fourth).le
    refine ⟨containsLat_latitudeAt hsphere hu hu1,
      containsLng_longitudeAt hsphere hv hv1, ?_,
      contains_of_drawn hsphere hu hu1 hv hv1⟩
    intro phi hlower hupper
    exact latitudeAt_le_iff hsphere hu hu1 hlower hupper

/-- Half of the way across the antimeridian is half a turn, and half of the sine is
where half of the fractions end. -/
theorem draw_at_antimeridian :
    exists r : LatLngRect ℝ,
      LatLngRect.ofBounds 0 (Real.pi / 6) (3 * Real.pi / 4) (-(3 * Real.pi / 4)) =
          .ok r ∧
        r.lngLength = Real.pi / 2 ∧
        longitudeAt r (unit 0x80000000 0) = Real.pi ∧ r.containsLng Real.pi = true ∧
        r.containsLng 0 = false ∧
        (forall phi, 0 ≤ phi -> phi ≤ Real.pi / 6 ->
          (latitudeAt r (unit 0x80000000 0) ≤ phi <-> 1 / 4 ≤ Real.sin phi)) ∧
        r.contains (pointInRectFrom r 0x80000000 0 0x80000000 0) = true := by
  have hpi := Real.pi_pos
  have htwo : (2.0 : ℝ) = 2 := by norm_num
  let r : LatLngRect ℝ :=
    { latLo := 0, latHi := Real.pi / 6, lngLo := 3 * Real.pi / 4,
      lngHi := -(3 * Real.pi / 4) }
  have hmade : LatLngRect.ofBounds 0 (Real.pi / 6) (3 * Real.pi / 4)
      (-(3 * Real.pi / 4)) = .ok r := by
    refine ofBounds_eq_ok_iff.mpr ⟨rfl, ⟨?_, ?_, ?_⟩, ?_⟩
    · show -Real.pi / (2.0 : ℝ) ≤ 0
      linarith
    · show (0 : ℝ) ≤ Real.pi / 6
      positivity
    · show Real.pi / 6 ≤ Real.pi / (2.0 : ℝ)
      linarith
    · show ¬ (Real.pi < |3 * Real.pi / 4| ∨ Real.pi < |(-(3 * Real.pi / 4))|)
      rw [abs_neg, or_self, abs_of_pos (by positivity)]
      linarith
  have hlength : r.lngLength = Real.pi / 2 := by
    have hcrossing : ¬ r.lngLo ≤ r.lngHi := by
      show ¬ 3 * Real.pi / 4 ≤ -(3 * Real.pi / 4)
      linarith
    rw [lngLength_eq, if_neg hcrossing]
    show -(3 * Real.pi / 4) - 3 * Real.pi / 4 + 2 * Real.pi = _
    ring
  have hhalf : (unit 0x80000000 0 : ℝ) = 1 / 2 := by
    have hnumerator : numerator 0x80000000 0 = 2 ^ 52 := by decide
    rw [unit_eq, hnumerator]
    norm_num
  have hlongitude : longitudeAt r (unit 0x80000000 0) = Real.pi := by
    rw [longitudeAt, hhalf, hlength]
    show 3 * Real.pi / 4 + 1 / 2 * (Real.pi / 2) = _
    ring
  have hwithin : withinTurn Real.pi = Real.pi := if_neg (lt_irrefl _)
  rcases rectangles_hold_their_draws hmade with ⟨_, hlongitudes, _, hdraws⟩
  rcases hdraws 0x80000000 0 0x80000000 0 with ⟨hlat, hlng, hshare, hpoint⟩
  rw [hlongitude, hwithin] at hlng hpoint
  refine ⟨r, hmade, hlength, hlongitude, hlng, ?_, ?_, ?_⟩
  · rw [Bool.eq_false_iff, Ne, hlongitudes 0 (by linarith) hpi.le, hlength]
    rintro ⟨t, hnonneg, hle, heast | hturned⟩ <;> linarith
  · intro phi hlower hupper
    rw [hshare phi hlower hupper, hhalf, Real.sin_zero, Real.sin_pi_div_six]
    norm_num
  · have hbounds := (containsLat_iff r _).mp hlat
    have hupper : latitudeAt r (unit 0x80000000 0) ≤ Real.pi / 6 := hbounds.right
    refine hpoint ?_ (by linarith)
    rw [abs_of_nonneg hbounds.left]
    linarith

end Sampling

end SphereFixtures
