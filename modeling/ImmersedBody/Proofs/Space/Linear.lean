import Mathlib.LinearAlgebra.Matrix.NonsingularInverse
import ImmersedBody.Proofs.Reals
import ImmersedBody.Space.Dim

/-!
# Linear algebra in the plane and in space

Laws of vectors and matrices with real entries.  A `RigidMap` is an orthogonal
matrix together with a shift; in the plane both keep to the plane.  It preserves
distances and, up to orientation, volumes.
-/

namespace ImmersedBody

/-! ## Vectors -/

namespace Vec3

variable (u v w : Vec3 ℝ)

theorem dot_comm : v.dot w = w.dot v := by
  simp only [dot]
  ring

theorem dot_add : u.dot (v + w) = u.dot v + u.dot w := by
  simp only [dot, add_x, add_y, add_z]
  ring

theorem add_dot : (u + v).dot w = u.dot w + v.dot w := by
  rw [dot_comm, dot_add, dot_comm w u, dot_comm w v]

theorem dot_scale (factor : ℝ) : v.dot (w.scale factor) = v.dot w * factor := by
  simp only [dot, scale_x, scale_y, scale_z]
  ring

theorem scale_dot (factor : ℝ) : (v.scale factor).dot w = v.dot w * factor := by
  rw [dot_comm, dot_scale, dot_comm]

theorem zero_dot : (0 : Vec3 ℝ).dot w = 0 := by
  simp [dot]

/-- The product of three vectors does not change when they move round. -/
theorem dot_cross_rotate : (u.cross v).dot w = v.dot (w.cross u) := by
  simp only [dot, cross]
  ring

theorem norm_mul_self : v.norm * v.norm = v.normSq := by
  apply Real.mul_self_sqrt
  simp only [normSq, dot]
  nlinarith [mul_self_nonneg v.x, mul_self_nonneg v.y, mul_self_nonneg v.z]

end Vec3

/-! ## Matrices -/

namespace Mat3

variable (a b c : Mat3 ℝ) (v w : Vec3 ℝ)

section

variable {α : Type} [Zero α] [One α]

@[simp] theorem one_row0 : (1 : Mat3 α).row0 = ⟨1, 0, 0⟩ := rfl
@[simp] theorem one_row1 : (1 : Mat3 α).row1 = ⟨0, 1, 0⟩ := rfl
@[simp] theorem one_row2 : (1 : Mat3 α).row2 = ⟨0, 0, 1⟩ := rfl

end

section

variable {α : Type} [Mul α] (a : Mat3 α) (factor : α)

@[simp] theorem scale_row0 : (a.scale factor).row0 = a.row0.scale factor := rfl
@[simp] theorem scale_row1 : (a.scale factor).row1 = a.row1.scale factor := rfl
@[simp] theorem scale_row2 : (a.scale factor).row2 = a.row2.scale factor := rfl

end

section

variable {α : Type} [Add α] [Mul α] (a b : Mat3 α) (v : Vec3 α)

@[simp] theorem apply_x : (a.apply v).x = a.row0.dot v := rfl
@[simp] theorem apply_y : (a.apply v).y = a.row1.dot v := rfl
@[simp] theorem apply_z : (a.apply v).z = a.row2.dot v := rfl

@[simp] theorem mul_row0 : (a.mul b).row0 = b.transpose.apply a.row0 := rfl
@[simp] theorem mul_row1 : (a.mul b).row1 = b.transpose.apply a.row1 := rfl
@[simp] theorem mul_row2 : (a.mul b).row2 = b.transpose.apply a.row2 := rfl

end

theorem apply_add : a.apply (v + w) = a.apply v + a.apply w := by
  ext <;> simp [Vec3.dot_add]

theorem apply_scale (factor : ℝ) : a.apply (v.scale factor) = (a.apply v).scale factor := by
  ext <;> simp [Vec3.dot_scale]

theorem apply_zero : a.apply 0 = 0 := by
  ext <;> simp [Vec3.dot]

theorem one_apply : (1 : Mat3 ℝ).apply v = v := by
  ext <;> simp [Vec3.dot]

theorem mul_apply : (a.mul b).apply v = a.apply (b.apply v) := by
  ext <;> simp [Vec3.dot, transpose] <;> ring

/-- A matrix moves to the other side of a product as its transpose. -/
theorem dot_apply : v.dot (a.apply w) = (a.transpose.apply v).dot w := by
  simp only [Vec3.dot, apply_x, apply_y, apply_z, transpose]
  ring

theorem det_mul : (a.mul b).det = a.det * b.det := by
  simp only [det, mul_row0, mul_row1, mul_row2, apply_x, apply_y, apply_z, transpose, Vec3.dot]
  ring

theorem det_transpose : a.transpose.det = a.det := by
  simp only [det, transpose]
  ring

theorem det_one : (1 : Mat3 ℝ).det = 1 := by
  simp [det]

/-- The matrix as a square array of numbers. -/
def toMatrix : Matrix (Fin 3) (Fin 3) ℝ :=
  !![a.row0.x, a.row0.y, a.row0.z; a.row1.x, a.row1.y, a.row1.z; a.row2.x, a.row2.y, a.row2.z]

theorem toMatrix_injective {a b : Mat3 ℝ} (same : a.toMatrix = b.toMatrix) : a = b := by
  have entry (i j : Fin 3) : a.toMatrix i j = b.toMatrix i j := by rw [same]
  ext
  · exact entry 0 0
  · exact entry 0 1
  · exact entry 0 2
  · exact entry 1 0
  · exact entry 1 1
  · exact entry 1 2
  · exact entry 2 0
  · exact entry 2 1
  · exact entry 2 2

theorem toMatrix_mul : (a.mul b).toMatrix = a.toMatrix * b.toMatrix := by
  ext i j
  rw [Matrix.mul_apply, Fin.sum_univ_three]
  fin_cases i <;> fin_cases j <;>
    simp [toMatrix, transpose, Vec3.dot, mul_comm]

theorem toMatrix_one : (1 : Mat3 ℝ).toMatrix = 1 := by
  ext i j
  fin_cases i <;> fin_cases j <;> rfl

/-- An inverse on one side is an inverse on the other side. -/
theorem mul_eq_one_of_mul_eq_one {a b : Mat3 ℝ} (inverse : a.mul b = 1) : b.mul a = 1 := by
  apply toMatrix_injective
  rw [toMatrix_mul, toMatrix_one, mul_eq_one_comm, ← toMatrix_mul, inverse, toMatrix_one]

/-- The columns of the matrix are orthonormal. -/
def IsOrthogonal : Prop :=
  a.transpose.mul a = 1

/-- The matrix maps the plane `z = 0` to itself, and the third axis to itself. -/
def KeepsPlane : Prop :=
  a.row0.z = 0 ∧ a.row1.z = 0 ∧ a.row2.x = 0 ∧ a.row2.y = 0

variable {a b c}

theorem IsOrthogonal.mul_transpose (orthogonal : a.IsOrthogonal) : a.mul a.transpose = 1 :=
  mul_eq_one_of_mul_eq_one orthogonal

theorem isOrthogonal_one : (1 : Mat3 ℝ).IsOrthogonal := by
  ext <;> simp [transpose, Vec3.dot]

theorem mul_assoc : (a.mul b).mul c = a.mul (b.mul c) := by
  apply toMatrix_injective
  simp only [toMatrix_mul, Matrix.mul_assoc]

theorem transpose_mul : (a.mul b).transpose = b.transpose.mul a.transpose := by
  ext <;> simp [transpose, Vec3.dot] <;> ring

theorem one_mul : (1 : Mat3 ℝ).mul a = a := by
  apply toMatrix_injective
  rw [toMatrix_mul, toMatrix_one, Matrix.one_mul]

theorem IsOrthogonal.mul (orthogonal : a.IsOrthogonal) (orthogonal' : b.IsOrthogonal) :
    (a.mul b).IsOrthogonal := by
  rw [IsOrthogonal, transpose_mul, mul_assoc, ← @mul_assoc a.transpose, orthogonal, one_mul,
    orthogonal']

theorem IsOrthogonal.dot_apply_apply (orthogonal : a.IsOrthogonal) (v w : Vec3 ℝ) :
    (a.apply v).dot (a.apply w) = v.dot w := by
  rw [dot_apply, ← mul_apply, orthogonal, one_apply]

theorem IsOrthogonal.det_mul_self (orthogonal : a.IsOrthogonal) : a.det * a.det = 1 := by
  rw [← det_one, ← orthogonal, det_mul, det_transpose]

theorem KeepsPlane.mul (keeps : a.KeepsPlane) (keeps' : b.KeepsPlane) :
    (a.mul b).KeepsPlane := by
  rcases keeps with ⟨x, y, zx, zy⟩
  rcases keeps' with ⟨x', y', zx', zy'⟩
  refine ⟨?_, ?_, ?_, ?_⟩ <;> simp [Vec3.dot, transpose, *]

end Mat3

end ImmersedBody
