import SphereFixtures.Proofs.Geometry.Directions

/-!
# Handedness

The axes of a frame are the columns of a matrix.  Placing a point multiplies it by this
matrix and reading a point by its transpose, so for orthonormal axes the two are
inverse to each other, and the determinant tells a right-handed frame.
-/

namespace SphereFixtures

namespace Frame

open Vec3 Matrix

variable {f : Frame ℝ}

/-!
## The matrix of a frame
-/

/-- The matrix whose columns are the axes. -/
def toMatrix (f : Frame ℝ) : Matrix (Fin 3) (Fin 3) ℝ :=
  (Matrix.of ![f.x.coordinates, f.y.coordinates, f.z.coordinates])ᵀ

theorem coordinates_toGlobal (f : Frame ℝ) (p : Vec3 ℝ) :
    (f.toGlobal p).coordinates = f.toMatrix *ᵥ p.coordinates := by
  funext i
  fin_cases i <;> exact (dotProduct_coordinates _ p).symm

theorem coordinates_toLocal (f : Frame ℝ) (p : Vec3 ℝ) :
    (f.toLocal p).coordinates = f.toMatrixᵀ *ᵥ p.coordinates := by
  funext i
  fin_cases i <;> exact (dotProduct_coordinates _ p).symm

theorem det_toMatrix (f : Frame ℝ) : f.toMatrix.det = f.x.dot (f.y.cross f.z) := by
  rw [toMatrix, det_transpose, ← dotProduct_coordinates, coordinates_cross]
  exact (triple_product_eq_det _ _ _).symm

/-- Axes that are placed in a frame have the product of both matrices. -/
theorem toMatrix_toGlobal (f g : Frame ℝ) :
    ({ x := f.toGlobal g.x, y := f.toGlobal g.y, z := f.toGlobal g.z } : Frame ℝ).toMatrix =
      f.toMatrix * g.toMatrix := by
  ext i j
  fin_cases j
  · exact congrFun (coordinates_toGlobal f g.x) i
  · exact congrFun (coordinates_toGlobal f g.y) i
  · exact congrFun (coordinates_toGlobal f g.z) i

namespace Orthonormal

theorem transpose_mul_toMatrix (h : f.Orthonormal) : f.toMatrixᵀ * f.toMatrix = 1 := by
  apply Matrix.ext_of_mulVec_single
  intro i
  rcases coordinates_surjective (Pi.single i 1) with ⟨p, hp⟩
  rw [← mulVec_mulVec, one_mulVec, ← hp, ← coordinates_toGlobal,
    ← coordinates_toLocal, h.toLocal_toGlobal]

/-- Placing a point where it was read gives it back. -/
theorem toGlobal_toLocal (h : f.Orthonormal) (p : Vec3 ℝ) :
    f.toGlobal (f.toLocal p) = p := by
  -- a square matrix with an inverse on one side has it on both
  have hinverse := mul_eq_one_comm.mp h.transpose_mul_toMatrix
  apply coordinates_injective
  rw [coordinates_toGlobal, coordinates_toLocal, mulVec_mulVec, hinverse, one_mulVec]

end Orthonormal

/-!
## Right-handed frames
-/

/-- Whether the axes are orthonormal and follow each other counter-clockwise. -/
structure RightHanded (f : Frame ℝ) : Prop extends f.Orthonormal where
  det_eq_one : f.toMatrix.det = 1

/-- Placing three vectors in a right-handed frame keeps their turn. -/
theorem RightHanded.det_toGlobal (h : f.RightHanded) (g : Frame ℝ) :
    ({ x := f.toGlobal g.x, y := f.toGlobal g.y, z := f.toGlobal g.z } : Frame ℝ).toMatrix.det =
      g.toMatrix.det := by
  rw [toMatrix_toGlobal, det_mul, h.det_eq_one, one_mul]

/-- Two orthogonal axes of length one are completed by their product. -/
theorem rightHanded_of_x_eq (hy : f.y.dot f.y = 1) (hz : f.z.dot f.z = 1)
    (hyz : f.y.dot f.z = 0) (hx : f.x = f.y.cross f.z) : f.RightHanded :=
  have hunit : f.x.dot f.x = 1 := by rw [hx, dot_self_cross _ _ hy hz hyz]
  { x_unit := hunit
    y_unit := hy
    z_unit := hz
    xy := by rw [hx, dot_comm, dot_cross_self]
    yz := hyz
    zx := by rw [hx, dot_cross_right]
    det_eq_one := by rw [det_toMatrix, ← hx, hunit] }

end Frame

end SphereFixtures
