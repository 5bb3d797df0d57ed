import Mathlib
import SphereFixtures.Geometry.Frame
import SphereFixtures.Proofs.Scalars

/-!
# Orthonormal frames

With exact arithmetic the products of vectors are those of space.  A frame whose
axes are orthonormal keeps lengths when it places a point, and reading the placed
point gives the point back.
-/

namespace SphereFixtures

/-!
## Products and lengths
-/

namespace Vec3

variable (a b : Vec3 ℝ) (s : ℝ)

theorem dot_eq : a.dot b = a.x * b.x + a.y * b.y + a.z * b.z := by
  show (0.0 : ℝ) + a.x * b.x + a.y * b.y + a.z * b.z = _
  norm_num

theorem dot_comm : a.dot b = b.dot a := by
  rw [dot_eq, dot_eq]
  ring

theorem dot_self_nonneg : 0 ≤ a.dot a := by
  rw [dot_eq]
  nlinarith [sq_nonneg a.x, sq_nonneg a.y, sq_nonneg a.z]

theorem norm_eq : a.norm = √(a.dot a) := rfl

theorem norm_sq : a.norm ^ 2 = a.dot a := by
  rw [norm_eq, Real.sq_sqrt a.dot_self_nonneg]

theorem norm_nonneg : 0 ≤ a.norm :=
  Real.sqrt_nonneg _

theorem divBy_eq : a.divBy s = { x := a.x / s, y := a.y / s, z := a.z / s } := rfl

theorem dot_divBy : a.dot (b.divBy s) = a.dot b / s := by
  rw [divBy_eq, dot_eq, dot_eq]
  ring

theorem cross_divBy : a.cross (b.divBy s) = (a.cross b).divBy s := by
  simp only [divBy_eq, cross, mk.injEq]
  refine ⟨?_, ?_, ?_⟩ <;> ring

theorem norm_divBy {s : ℝ} (hs : 0 < s) : (a.divBy s).norm = a.norm / s := by
  have hsquare : (a.divBy s).dot (a.divBy s) = a.dot a / s ^ 2 := by
    rw [dot_divBy, dot_comm, dot_divBy]
    ring
  rw [norm_eq, hsquare, Real.sqrt_div a.dot_self_nonneg, Real.sqrt_sq hs.le,
    norm_eq]

/-- A vector that is not zero has length one once it is divided by its length. -/
theorem norm_divBy_norm (ha : 0 < a.norm) : (a.divBy a.norm).norm = 1 := by
  rw [norm_divBy a ha, div_self ha.ne']

theorem norm_cross_sq : (a.cross b).norm ^ 2 = a.dot a * b.dot b - a.dot b ^ 2 := by
  rw [norm_sq]
  simp only [dot_eq, cross]
  ring

/-!
## Angles
-/

theorem angleTo_eq_arg : a.angleTo b = Complex.arg ⟨a.dot b, (a.cross b).norm⟩ := rfl

theorem angleTo_divBy {s : ℝ} (hs : 0 < s) : a.angleTo (b.divBy s) = a.angleTo b := by
  have hscaled : (⟨a.dot b / s, (a.cross b).norm / s⟩ : ℂ) =
      (s⁻¹ : ℝ) * ⟨a.dot b, (a.cross b).norm⟩ := by
    apply Complex.ext <;> simp <;> ring
  rw [angleTo_eq_arg, dot_divBy, cross_divBy, norm_divBy _ hs, hscaled,
    Complex.arg_real_mul _ (inv_pos.mpr hs), angleTo_eq_arg]

/-- An acute angle follows from its tangent. -/
theorem angleTo_eq_arctan (h : 0 < a.dot b) :
    a.angleTo b = Real.arctan ((a.cross b).norm / a.dot b) := by
  have hacute : |a.angleTo b| < Real.pi / 2 := by
    rw [angleTo_eq_arg]
    exact Complex.abs_arg_lt_pi_div_two_iff.mpr (Or.inl h)
  rcases abs_lt.mp hacute with ⟨hlower, hupper⟩
  have htangent := Complex.tan_arg ⟨a.dot b, (a.cross b).norm⟩
  rw [← angleTo_eq_arg] at htangent
  rw [← htangent, Real.arctan_tan hlower hupper]

end Vec3

/-!
## Frames
-/

namespace Frame

open Vec3

/-- Whether the axes have length one and are orthogonal to each other.  The frame
may be left-handed. -/
structure Orthonormal (f : Frame ℝ) : Prop where
  x_unit : f.x.dot f.x = 1
  y_unit : f.y.dot f.y = 1
  z_unit : f.z.dot f.z = 1
  xy : f.x.dot f.y = 0
  yz : f.y.dot f.z = 0
  zx : f.z.dot f.x = 0

variable {f : Frame ℝ}

theorem dot_toGlobal (f : Frame ℝ) (v p : Vec3 ℝ) :
    v.dot (f.toGlobal p) = p.x * v.dot f.x + p.y * v.dot f.y + p.z * v.dot f.z := by
  simp only [dot_eq, toGlobal]
  ring

theorem toLocal_divBy (f : Frame ℝ) (p : Vec3 ℝ) (s : ℝ) :
    f.toLocal (p.divBy s) = (f.toLocal p).divBy s := by
  simp only [toLocal, dot_divBy]
  rfl

theorem toGlobal_divBy (f : Frame ℝ) (p : Vec3 ℝ) (s : ℝ) :
    f.toGlobal (p.divBy s) = (f.toGlobal p).divBy s := by
  simp only [toGlobal, dot_divBy]
  rfl

namespace Orthonormal

variable (h : f.Orthonormal) (p : Vec3 ℝ)

include h

/-- Reading a point where it was placed gives it back. -/
theorem toLocal_toGlobal : f.toLocal (f.toGlobal p) = p := by
  have hyx : f.y.dot f.x = 0 := by rw [dot_comm, h.xy]
  have hzy : f.z.dot f.y = 0 := by rw [dot_comm, h.yz]
  have hxz : f.x.dot f.z = 0 := by rw [dot_comm, h.zx]
  simp only [toLocal, dot_toGlobal, h.x_unit, h.y_unit, h.z_unit, h.xy, h.yz, h.zx,
    hyx, hzy, hxz, mul_one, mul_zero, add_zero, zero_add]

theorem dot_z_toGlobal : f.z.dot (f.toGlobal p) = p.z :=
  congrArg Vec3.z (h.toLocal_toGlobal p)

/-- Products of placed points are those of the points. -/
theorem dot_toGlobal_toGlobal (q : Vec3 ℝ) :
    (f.toGlobal p).dot (f.toGlobal q) = p.dot q := by
  have hx : f.x.dot (f.toGlobal p) = p.x := congrArg Vec3.x (h.toLocal_toGlobal p)
  have hy : f.y.dot (f.toGlobal p) = p.y := congrArg Vec3.y (h.toLocal_toGlobal p)
  rw [dot_toGlobal, dot_comm _ f.x, dot_comm _ f.y, dot_comm _ f.z, hx, hy,
    h.dot_z_toGlobal, dot_eq]
  ring

theorem dot_toGlobal_self : (f.toGlobal p).dot (f.toGlobal p) = p.dot p :=
  h.dot_toGlobal_toGlobal p p

theorem norm_toGlobal : (f.toGlobal p).norm = p.norm := by
  rw [norm_eq, h.dot_toGlobal_self, norm_eq]

/-- A point on the side of the third axis is seen from it at the angle that the
first two coordinates have against the third one. -/
theorem angleTo_toGlobal {p : Vec3 ℝ} (hp : 0 < p.z) :
    f.z.angleTo (f.toGlobal p) = Real.arctan (√(p.x ^ 2 + p.y ^ 2) / p.z) := by
  have hz := h.dot_z_toGlobal p
  have hcross : (f.z.cross (f.toGlobal p)).norm = √(p.x ^ 2 + p.y ^ 2) := by
    -- beside the axis are the coordinates that its product with the point leaves out
    rw [← Real.sqrt_sq (norm_nonneg _), norm_cross_sq, h.z_unit,
      h.dot_toGlobal_self, hz, dot_eq]
    congr 1
    ring
  rw [angleTo_eq_arctan _ _ (hz ▸ hp), hcross, hz]

end Orthonormal

end Frame

end SphereFixtures
