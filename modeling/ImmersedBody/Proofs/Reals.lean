import Mathlib.Analysis.SpecialFunctions.Trigonometric.Basic
import ImmersedBody.Scalar

/-!
# Real scalars

Over the real numbers the operations of this library are exact.  Statements about
geometry and motion are made for real scalars.
-/

namespace ImmersedBody

noncomputable instance : Scalar ℝ where
  le a b := decide (a ≤ b)
  lt a b := decide (a < b)
  abs a := |a|
  sqrt := Real.sqrt
  sin := Real.sin
  cos := Real.cos
  pi := Real.pi

namespace Scalar

variable (a b : ℝ)

@[simp]
theorem le_real_iff : le a b = true ↔ a ≤ b :=
  decide_eq_true_iff

@[simp]
theorem lt_real_iff : lt a b = true ↔ a < b :=
  decide_eq_true_iff

@[simp]
theorem abs_real : abs a = |a| :=
  rfl

@[simp]
theorem max_real : max a b = a ⊔ b := by
  rw [max, if_pos ((le_real_iff a a).mpr le_rfl), max_def]
  exact if_congr (le_real_iff a b) rfl rfl

@[simp]
theorem half_real : (half : ℝ) = 1 / 2 := by
  simp [half]

@[simp]
theorem quarter_real : (quarter : ℝ) = 1 / 4 := by
  simp [quarter]

@[simp]
theorem eighth_real : (eighth : ℝ) = 1 / 8 := by
  simp [eighth]

theorem epsilon_real_pos : (0 : ℝ) < epsilon := by
  simp [epsilon]

end Scalar

end ImmersedBody
