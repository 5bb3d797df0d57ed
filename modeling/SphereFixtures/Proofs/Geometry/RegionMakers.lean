import SphereFixtures.Proofs.Geometry.Caps
import SphereFixtures.Proofs.Geometry.Rectangles
import SphereFixtures.Proofs.NotANumber

/-!
# Regions made from doubles

A height and latitudes are asked to lie in a range, which only numbers do.  Longitudes
are asked not to exceed a bound, and an area is cut down to that of the sphere, so what
is not a number gets through there: it stays in a rectangle as a longitude, and as an
area it makes the whole sphere.
-/

namespace SphereFixtures

open Scalar

/-- Doubles with any function for sines. -/
abbrev Scalar.doublesOfSine (sin : Float -> Float) : Scalar Float :=
  { scalarFloat with sin := sin }

example : doublesOfSine Float.sin = scalarFloat := rfl

/-!
## Caps
-/

namespace Cap

theorem ofHeight_eq_ok {α : Type} [Scalar α] (center : Vec3 α) {height : α}
    (h : (0.0 : α) ≤ height ∧ height ≤ (2.0 : α)) :
    ofHeight center height =
      .ok { center := center.normalize, height := height, height_mem := h } :=
  dif_pos h

theorem ofHeight_eq_error {α : Type} [Scalar α] (center : Vec3 α) {height : α}
    (h : ¬ ((0.0 : α) ≤ height ∧ height ≤ (2.0 : α))) :
    ofHeight center height = .error (.heightOutOfRange height) :=
  dif_neg h

section

variable (sin : Float -> Float) (center : Vec3 Float) {x : Float} (hx : x.isNaN = true)

theorem isNaN_height :
    let _ : Scalar Float := doublesOfSine sin
    forall cap : Cap Float, cap.height.isNaN = false := by
  intro _ cap
  exact (Binary64.isNaN_eq_false_of_le cap.height_mem.left).right

include hx

theorem ofHeight_of_isNaN :
    let _ : Scalar Float := doublesOfSine sin
    ofHeight center x = .error (.heightOutOfRange x) := by
  intro _
  apply ofHeight_eq_error
  intro h
  exact Binary64.not_le_of_isNaN_right hx h.left

/-- Both tests of a radius are passed, and then the height is tested. -/
theorem ofRadius_of_isNaN (hsin : forall y : Float, y.isNaN = true -> (sin y).isNaN = true) :
    let _ : Scalar Float := doublesOfSine sin
    exists height, ofRadius center x = .error (.heightOutOfRange height) := by
  intro _
  have hsquare : (sin (0.5 * x) * sin (0.5 * x)).isNaN = true :=
    Binary64.isNaN_mul_left (hsin _ (Binary64.isNaN_mul_right 0.5 hx)) _
  have hheight := ofHeight_of_isNaN sin center (Binary64.isNaN_mul_right 2.0 hsquare)
  refine ⟨_, Eq.trans ?_ hheight⟩
  rw [ofRadius, if_neg (Binary64.not_lt_of_isNaN hx),
    if_neg (Binary64.not_le_of_isNaN_right hx)]
  rfl

/-- The bound on the height stands where there is no number to compare it with. -/
theorem exists_ofArea_of_isNaN :
    let _ : Scalar Float := doublesOfSine sin
    exists cap, ofArea center x = .ok cap ∧ cap.height = 2.0 := by
  intro _
  have hheight := Binary64.isNaN_div_left hx (2.0 * 3.141592653589793)
  have hsphere : ofArea center x = ofHeight center 2.0 :=
    congrArg (ofHeight center) (if_neg (Binary64.not_lt_of_isNaN hheight))
  have htwo : (0.0 : Float) ≤ 2.0 ∧ (2.0 : Float) ≤ 2.0 := by decide +kernel
  exact ⟨_, hsphere.trans (ofHeight_eq_ok center htwo), rfl⟩

end

end Cap

/-!
## Rectangles
-/

namespace LatLngRect

/-- Half a turn is not exceeded by the longitudes up to half a turn either way, nor by
what is not a number. -/
theorem not_pi_lt_abs_iff (lng : Float) :
    ¬ (pi : Float) < Scalar.abs lng <-> lng.isNaN = true ∨ (-pi ≤ lng ∧ lng ≤ pi) :=
  Binary64.not_lt_abs_iff (m := 7074237752028440) (e := -51) (by decide) rfl rfl lng

theorem ofBounds_eq_ok_iff_numbers {latLo latHi lngLo lngHi : Float}
    {r : LatLngRect Float} :
    ofBounds latLo latHi lngLo lngHi = .ok r <->
      r = { latLo := latLo, latHi := latHi, lngLo := lngLo, lngHi := lngHi } ∧
        r.LatitudesValid ∧
        (lngLo.isNaN = true ∨ (-pi ≤ lngLo ∧ lngLo ≤ pi)) ∧
        (lngHi.isNaN = true ∨ (-pi ≤ lngHi ∧ lngHi ≤ pi)) := by
  rw [ofBounds_eq_ok_iff, LongitudesBeyond, not_or, not_pi_lt_abs_iff, not_pi_lt_abs_iff]
  constructor
  · rintro ⟨rfl, hvalid⟩
    exact ⟨rfl, hvalid⟩
  · rintro ⟨rfl, hvalid⟩
    exact ⟨rfl, hvalid⟩

/-- A range holds numbers only. -/
theorem OnSphere.isNaN_lng {r : LatLngRect Float} (h : r.OnSphere) :
    r.lngLo.isNaN = false ∧ r.lngHi.isNaN = false :=
  ⟨(Binary64.isNaN_eq_false_of_le h.lngLo_mem.left).right,
    (Binary64.isNaN_eq_false_of_le h.lngHi_mem.left).right⟩

end LatLngRect

/-- The bounds that make a rectangle are latitudes in their range and in order, and
longitudes that lie in their range or are not numbers; nothing else keeps a rectangle
off the sphere.  Whatever a cap is made from, its height is a number from zero to two.
No cap is made of a height or a radius that is not a number, but of such an area the
whole sphere is. -/
theorem regions_made_of_doubles {sin : Float -> Float}
    (hsin : forall y : Float, y.isNaN = true -> (sin y).isNaN = true) :
    (forall (latLo latHi lngLo lngHi : Float) (r : LatLngRect Float),
      LatLngRect.ofBounds latLo latHi lngLo lngHi = .ok r <->
        r = { latLo := latLo, latHi := latHi, lngLo := lngLo, lngHi := lngHi } ∧
          r.LatitudesValid ∧
          (lngLo.isNaN = true ∨ (-pi ≤ lngLo ∧ lngLo ≤ pi)) ∧
          (lngHi.isNaN = true ∨ (-pi ≤ lngHi ∧ lngHi ≤ pi))) ∧
    (forall (latLo latHi lngLo lngHi : Float) (r : LatLngRect Float),
      LatLngRect.ofBounds latLo latHi lngLo lngHi = .ok r ->
        r.latLo.isNaN = false ∧ r.latHi.isNaN = false ∧
          (r.OnSphere <-> r.lngLo.isNaN = false ∧ r.lngHi.isNaN = false)) ∧
    (let _ : Scalar Float := doublesOfSine sin
      forall (center : Vec3 Float) (x : Float),
        (forall cap : Cap Float,
          Cap.ofHeight center x = .ok cap ∨ Cap.ofRadius center x = .ok cap ∨
              Cap.ofArea center x = .ok cap ->
            cap.height.isNaN = false ∧ 0.0 ≤ cap.height ∧ cap.height ≤ 2.0) ∧
        (x.isNaN = true ->
          Cap.ofHeight center x = .error (.heightOutOfRange x) ∧
            (exists height,
              Cap.ofRadius center x = .error (.heightOutOfRange height)) ∧
            exists cap, Cap.ofArea center x = .ok cap ∧ cap.height = 2.0)) := by
  refine ⟨fun _ _ _ _ _ => LatLngRect.ofBounds_eq_ok_iff_numbers, ?_, ?_⟩
  · intro latLo latHi lngLo lngHi r h
    rcases LatLngRect.ofBounds_eq_ok_iff_numbers.mp h with ⟨rfl, hlatitudes, hlo, hhi⟩
    refine ⟨(Binary64.isNaN_eq_false_of_le hlatitudes.left).right,
      (Binary64.isNaN_eq_false_of_le hlatitudes.right.left).right,
      LatLngRect.OnSphere.isNaN_lng, ?_⟩
    rintro ⟨hnumberLo, hnumberHi⟩
    rw [Bool.eq_false_iff] at hnumberLo hnumberHi
    exact
      { latitudes := hlatitudes
        lngLo_mem := hlo.resolve_left hnumberLo
        lngHi_mem := hhi.resolve_left hnumberHi }
  · intro _ center x
    constructor
    · intro cap _
      exact ⟨Cap.isNaN_height sin cap, cap.height_mem⟩
    · intro hx
      exact ⟨Cap.ofHeight_of_isNaN sin center hx,
        Cap.ofRadius_of_isNaN sin center hx hsin,
        Cap.exists_ofArea_of_isNaN sin center hx⟩

/-- With a sine that is no number where there is none to take it of, no radius makes a
cap, but an area does, and so does a longitude make a rectangle. -/
theorem regions_made_of_no_number :
    let sin : Float -> Float := fun y => if y.isNaN then y else Float.sin y
    let nan : Float := 0.0 / 0.0
    let center : Vec3 Float := { x := 0.0, y := 0.0, z := 1.0 }
    (forall y : Float, y.isNaN = true -> (sin y).isNaN = true) ∧ nan.isNaN = true ∧
      (exists r, LatLngRect.ofBounds 0.0 0.5 nan 1.0 = .ok r ∧ ¬ r.OnSphere) ∧
      (let _ : Scalar Float := doublesOfSine sin
        exists height cap,
          Cap.ofRadius center nan = .error (.heightOutOfRange height) ∧
            Cap.ofArea center nan = .ok cap ∧ cap.height = 2.0) := by
  intro sin nan center
  have hsin (y : Float) (hy : y.isNaN = true) : (sin y).isNaN = true := by
    show (if y.isNaN then y else Float.sin y).isNaN = true
    rw [if_pos hy, hy]
  have hnan : nan.isNaN = true := by decide +kernel
  rcases regions_made_of_doubles hsin with ⟨hbounds, hregion, hcaps⟩
  have hmade : LatLngRect.ofBounds 0.0 0.5 nan 1.0 = .ok ⟨0.0, 0.5, nan, 1.0⟩ := by
    apply (hbounds _ _ _ _ _).mpr
    exact ⟨rfl, by decide +kernel, Or.inl hnan, Or.inr (by decide +kernel)⟩
  rcases ((hcaps center nan).right hnan).right with ⟨⟨height, hradius⟩, cap, harea⟩
  refine ⟨hsin, hnan, ⟨_, hmade, ?_⟩, height, cap, hradius, harea⟩
  intro h
  have hnumber := ((hregion _ _ _ _ _ hmade).right.right.mp h).left
  rw [hnan] at hnumber
  cases hnumber

/-- The whole sphere is made of an area that is no number, and a rectangle of
longitudes that are none. -/
theorem regions_admit_no_number :
    let nan : Float := 0.0 / 0.0
    nan.isNaN = true ∧
      (exists cap, Cap.ofArea { x := 0.0, y := 0.0, z := 1.0 } nan = .ok cap ∧
        cap.height = 2.0) ∧
      (exists r, LatLngRect.ofBounds 0.0 0.5 nan nan = .ok r ∧
        r.lngLo.isNaN = true ∧ r.lngHi.isNaN = true ∧ ¬ r.OnSphere) := by
  intro nan
  have hnan : nan.isNaN = true := by decide +kernel
  have hmade : LatLngRect.ofBounds 0.0 0.5 nan nan = .ok ⟨0.0, 0.5, nan, nan⟩ :=
    LatLngRect.ofBounds_eq_ok_iff_numbers.mpr
      ⟨rfl, by decide +kernel, Or.inl hnan, Or.inl hnan⟩
  refine ⟨hnan, Cap.exists_ofArea_of_isNaN Float.sin _ hnan, _, hmade, hnan, hnan, ?_⟩
  intro h
  have hnumber := h.isNaN_lng.left
  rw [hnan] at hnumber
  cases hnumber

end SphereFixtures
