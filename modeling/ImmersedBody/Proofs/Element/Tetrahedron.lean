import Mathlib.Analysis.SpecialFunctions.Integrals.Basic
import Mathlib.Tactic.Ring
import ImmersedBody.Element.Map
import ImmersedBody.Proofs.Quadrature.Domains

/-!
# Volumes of tetrahedra

The map of a tetrahedron is affine, so its volume factor is the same everywhere: the triple product
of three edges over that of the reference tetrahedron.
-/

namespace ImmersedBody

open Shape

/-- The volume factor of a tetrahedron is the triple product of its edges, up to a constant. -/
theorem volumeFactor_tetrahedron (element : Element .tetrahedron ℝ) (ξ : Vec3 ℝ) :
    element.volumeFactor ξ =
      ((element[1] - element[0]).cross (element[2] - element[0])).dot
        (element[3] - element[0]) / 8 := by
  have nodes : element = #v[element[0], element[1], element[2], element[3]] := by
    apply Vector.ext
    intro i h
    match i, h with
    | 0, _ | 1, _ | 2, _ | 3, _ => rfl
  rw [nodes]
  simp [Element.volumeFactor, Element.derivative, jacobian, gradients, Dim.det, Mat3.det,
    Vec3.cross, Vec3.dot, Mat3.outer]
  ring

/-- The volume of the reference tetrahedron. -/
theorem integral_const_tetrahedron (value : ℝ) :
    tetrahedron.integral (fun _ => value) = 4 / 3 * value := by
  have row (y : ℝ) : ∫ x in (-1)..(-y), (-1 - x - y - -1) * value = (y - 1) ^ 2 * (value / 2) := by
    have affine (x : ℝ) : (-1 - x - y - -1) * value = -value * x - value * y := by
      ring
    simp only [affine]
    rw [intervalIntegral.integral_sub (Continuous.intervalIntegrable (by fun_prop) _ _)
      (Continuous.intervalIntegrable (by fun_prop) _ _), intervalIntegral.integral_const_mul,
      integral_id, intervalIntegral.integral_const, smul_eq_mul]
    ring
  rw [integral_tetrahedron continuous_const]
  simp only [intervalIntegral.integral_const, smul_eq_mul]
  rw [integral_triangle (by fun_prop)]
  simp only [row]
  rw [intervalIntegral.integral_mul_const, intervalIntegral.integral_comp_sub_right (· ^ 2) 1,
    integral_pow]
  ring

end ImmersedBody
