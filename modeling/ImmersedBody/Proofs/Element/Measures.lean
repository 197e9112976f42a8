import ImmersedBody.Proofs.Element.Isoparametric
import ImmersedBody.Proofs.Element.Tetrahedron

/-!
# Measures of elements

The measure of an element, which is an area or a volume, is the integral of its volume
factor over the reference domain.  It is negative if the element is turned inside out.

The volume factor of a simplex is constant, and that of a quadrilateral is linear in
the reference point, whatever the places of its nodes are.  The measure is therefore
the volume factor at one point times the measure of the reference domain.
-/

namespace ImmersedBody

open Shape

/-- The measure of an element, with its orientation. -/
noncomputable def Element.measure {shape : Shape} (element : Element shape ℝ) : ℝ :=
  shape.integral element.volumeFactor

/-! ## Integrals over the reference domains -/

theorem integral_const_triangle (value : ℝ) : triangle.integral (fun _ => value) = 2 * value := by
  rw [integral_triangle continuous_const]
  simp only [intervalIntegral.integral_const, smul_eq_mul]
  rw [intervalIntegral.integral_mul_const, intervalIntegral.integral_sub
    (Continuous.intervalIntegrable (by fun_prop) _ _)
    (Continuous.intervalIntegrable (by fun_prop) _ _), intervalIntegral.integral_neg, integral_id,
    intervalIntegral.integral_const, smul_eq_mul]
  ring

theorem integral_linear (value slope : ℝ) : ∫ x in (-1 : ℝ)..1, value + slope * x = 2 * value := by
  rw [intervalIntegral.integral_add (Continuous.intervalIntegrable (by fun_prop) _ _)
    (Continuous.intervalIntegrable (by fun_prop) _ _), intervalIntegral.integral_const_mul,
    integral_id, intervalIntegral.integral_const, smul_eq_mul]
  ring

/-- Over the square, only the value at the center counts for a linear function. -/
theorem integral_linear_quadrilateral (value slopeX slopeY : ℝ) :
    quadrilateral.integral (fun ξ => value + slopeX * ξ.x + slopeY * ξ.y) = 4 * value := by
  have row (y : ℝ) : ∫ x in (-1 : ℝ)..1, value + slopeX * x + slopeY * y =
      2 * value + 2 * slopeY * y := by
    have affine (x : ℝ) : value + slopeX * x + slopeY * y =
        value + slopeY * y + slopeX * x := by
      ring
    simp only [affine, integral_linear]
    ring
  rw [integral_quadrilateral (by fun_prop)]
  simp only [row, integral_linear]
  ring

theorem integral_const_hexahedron (value : ℝ) :
    hexahedron.integral (fun _ => value) = 8 * value := by
  have product := integral_hexahedron_mul (fun _ => value) (fun _ => 1) fun _ => 1
  simp only [intervalIntegral.integral_const, smul_eq_mul, mul_one] at product
  rw [product]
  ring

/-! ## Volume factors -/

namespace Element

/-- An affine map multiplies the volume factor by the determinant of its linear part. -/
theorem volumeFactor_affine {shape : Shape} (spatial : shape.dim = .three)
    (element : Element shape ℝ) (a : Mat3 ℝ) (b ξ : Vec3 ℝ) :
    volumeFactor (element.map fun x => a.apply x + b : Element shape ℝ) ξ =
      a.det * element.volumeFactor ξ := by
  rw [volumeFactor, volumeFactor, derivative_affine, spatial]
  exact Mat3.det_mul a _

theorem volumeFactor_triangle (element : Element .triangle ℝ) (ξ : Vec3 ℝ) :
    element.volumeFactor ξ =
      ((element[1] - element[0]).cross (element[2] - element[0])).z / 4 := by
  have nodes : element = #v[element[0], element[1], element[2]] := by
    apply Vector.ext
    intro i h
    match i, h with
    | 0, _ | 1, _ | 2, _ => rfl
  rw [nodes]
  simp [volumeFactor, derivative, jacobian, gradients, Dim.det, Mat3.minorDet, Vec3.cross,
    Mat3.outer]
  ring

/-- A quadrilateral is the list of its nodes. -/
theorem eq_nodes (element : Element .quadrilateral ℝ) :
    element = #v[element[0], element[1], element[2], element[3]] := by
  apply Vector.ext
  intro i h
  match i, h with
  | 0, _ | 1, _ | 2, _ | 3, _ => rfl

/-- The volume factor of a quadrilateral is linear, also if it is not convex. -/
theorem volumeFactor_quadrilateral (element : Element .quadrilateral ℝ) (ξ : Vec3 ℝ) :
    element.volumeFactor ξ = element.volumeFactor 0 +
      (element.volumeFactor ⟨1, 0, 0⟩ - element.volumeFactor 0) * ξ.x +
      (element.volumeFactor ⟨0, 1, 0⟩ - element.volumeFactor 0) * ξ.y := by
  rw [element.eq_nodes]
  simp [volumeFactor, derivative, jacobian, gradients, squareCorners, hat, hatSlope, Dim.det,
    Mat3.minorDet, Mat3.outer]
  ring

/-! ## Measures -/

/-- The measure of a triangle is twice its volume factor. -/
theorem measure_triangle (element : Element .triangle ℝ) (ξ : Vec3 ℝ) :
    element.measure = 2 * element.volumeFactor ξ := by
  have same : element.volumeFactor = fun _ => element.volumeFactor ξ := by
    funext η
    rw [volumeFactor_triangle, volumeFactor_triangle]
  rw [measure, same, integral_const_triangle]

/-- The measure of a quadrilateral is four times its volume factor at the center. -/
theorem measure_quadrilateral (element : Element .quadrilateral ℝ) :
    element.measure = 4 * element.volumeFactor 0 := by
  have linear := funext element.volumeFactor_quadrilateral
  exact (congrArg quadrilateral.integral linear).trans (integral_linear_quadrilateral _ _ _)

/-- The measure of a tetrahedron is four thirds of its volume factor. -/
theorem measure_tetrahedron (element : Element .tetrahedron ℝ) (ξ : Vec3 ℝ) :
    element.measure = 4 / 3 * element.volumeFactor ξ := by
  have same : element.volumeFactor = fun _ => element.volumeFactor ξ := by
    funext η
    rw [volumeFactor_tetrahedron, volumeFactor_tetrahedron]
  rw [measure, same, integral_const_tetrahedron]

/-- The measure of a parallelepiped. -/
theorem measure_image_hexahedron (a : Mat3 ℝ) (b : Vec3 ℝ) :
    (hexahedron.image a b).measure = 8 * a.det := by
  have same : (hexahedron.image a b).volumeFactor = fun _ => a.det := by
    funext ξ
    rw [volumeFactor, derivative_image]
    show (a.mul 1).det = a.det
    rw [Mat3.det_mul, Mat3.det_one, mul_one]
  rw [measure, same, integral_const_hexahedron]

end Element

end ImmersedBody
