import ImmersedBody.Proofs.Space.Linear

/-!
# Rigid maps

A rigid map is an orthogonal matrix followed by a shift.  A rigid map of the
plane keeps to the plane.  Distances are preserved, and so is the size of the
determinant of a linear map that is followed by the linear part.
-/

namespace ImmersedBody

/-- The vector without the components that a dimension does not have. -/
def Dim.flatten {α : Type} [Zero α] (dim : Dim) (v : Vec3 α) : Vec3 α :=
  dim.embed (dim.coords v)

namespace Dim

@[simp]
theorem flatten_three (v : Vec3 ℝ) : three.flatten v = v :=
  rfl

theorem flatten_two (v : Vec3 ℝ) : two.flatten v = ⟨v.x, v.y, 0⟩ :=
  rfl

variable (dim : Dim) (v w : Vec3 ℝ)

@[simp]
theorem flatten_flatten : dim.flatten (dim.flatten v) = dim.flatten v := by
  rw [flatten, flatten, coords_embed]

theorem flatten_add : dim.flatten (v + w) = dim.flatten v + dim.flatten w := by
  cases dim with
  | two =>
      ext <;> simp [flatten_two]
  | three =>
      rfl

theorem flatten_sub : dim.flatten (v - w) = dim.flatten v - dim.flatten w := by
  cases dim with
  | two =>
      ext <;> simp [flatten_two]
  | three =>
      rfl

theorem flatten_scale (factor : ℝ) :
    dim.flatten (v.scale factor) = (dim.flatten v).scale factor := by
  cases dim with
  | two =>
      ext <;> simp [flatten_two]
  | three =>
      rfl

/-- A matrix that keeps the plane maps the planar part of a vector to that of its image. -/
theorem flatten_apply {a : Mat3 ℝ} (planar : dim = .two → a.KeepsPlane) :
    dim.flatten (a.apply v) = a.apply (dim.flatten v) := by
  cases dim with
  | two =>
      rcases planar rfl with ⟨zeroX, zeroY, rowX, rowY⟩
      ext <;> simp [flatten_two, Vec3.dot, zeroX, zeroY, rowX, rowY]
  | three =>
      rfl

end Dim

/-- A map of the plane or of space that preserves distances. -/
@[ext]
structure RigidMap (dim : Dim) where
  linear : Mat3 ℝ
  offset : Vec3 ℝ
  orthogonal : linear.IsOrthogonal
  planar : dim = .two → linear.KeepsPlane
  flat_offset : dim.flatten offset = offset

namespace RigidMap

variable {dim : Dim} (map : RigidMap dim)

/-- The image of a point. -/
def apply (x : Vec3 ℝ) : Vec3 ℝ :=
  map.linear.apply x + map.offset

/-- The map that leaves everything where it is. -/
def identity (dim : Dim) : RigidMap dim where
  linear := 1
  offset := 0
  orthogonal := Mat3.isOrthogonal_one
  planar := fun _ => ⟨rfl, rfl, rfl, rfl⟩
  flat_offset := by cases dim <;> rfl

@[simp]
theorem identity_apply (x : Vec3 ℝ) : (identity dim).apply x = x := by
  rw [apply, identity, Mat3.one_apply]
  ext <;> simp

theorem apply_sub (x y : Vec3 ℝ) : map.apply x - map.apply y = map.linear.apply (x - y) := by
  ext <;> simp [apply, Vec3.dot] <;> ring

theorem normSq_linear (v : Vec3 ℝ) : (map.linear.apply v).normSq = v.normSq :=
  map.orthogonal.dot_apply_apply v v

/-- The distance of two points is that of their images. -/
theorem norm_apply_sub (x y : Vec3 ℝ) : (map.apply x - map.apply y).norm = (x - y).norm := by
  rw [apply_sub, Vec3.norm, Vec3.norm, normSq_linear]

/-- In the plane the upper left block is orthogonal, too. -/
theorem minorDet_mul_self (map : RigidMap .two) :
    map.linear.minorDet * map.linear.minorDet = 1 := by
  rcases map.planar rfl with ⟨zeroX, zeroY, rowX, rowY⟩
  have orthogonal := map.orthogonal
  simp only [Mat3.IsOrthogonal, Mat3.ext_iff, Vec3.ext_iff] at orthogonal
  simp [Mat3.transpose, Vec3.dot, zeroX, zeroY, rowX, rowY] at orthogonal
  simp only [Mat3.minorDet]
  grind

/-- The linear part does not change the size of a determinant. -/
theorem abs_det_mul (a : Mat3 ℝ) : |dim.det (map.linear.mul a)| = |dim.det a| := by
  have unit {d : ℝ} (square : d * d = 1) : |d| = 1 :=
    (abs_eq zero_le_one).mpr (mul_self_eq_one_iff.mp square)
  cases dim with
  | two =>
      rcases map.planar rfl with ⟨zeroX, zeroY, -, -⟩
      have product :
          (map.linear.mul a).minorDet = map.linear.minorDet * a.minorDet := by
        simp [Mat3.minorDet, Mat3.transpose, Vec3.dot, zeroX, zeroY]
        ring
      rw [Dim.det, Dim.det, product, abs_mul, unit map.minorDet_mul_self, one_mul]
  | three =>
      rw [Dim.det, Dim.det, Mat3.det_mul, abs_mul, unit map.orthogonal.det_mul_self, one_mul]

end RigidMap

end ImmersedBody
