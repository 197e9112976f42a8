import Mathlib.Algebra.Polynomial.Eval.Degree
import Mathlib.Analysis.SpecialFunctions.Integrals.Basic
import Mathlib.LinearAlgebra.Lagrange
import Mathlib.Topology.Algebra.Polynomial
import ImmersedBody.Proofs.Reals
import ImmersedBody.Quadrature.Rule

/-!
# Exact rules on an interval

A rule on `[-1, 1]` is exact to a degree if it integrates the monomials up to this
degree exactly.  It then integrates all polynomials up to this degree exactly, also
when it is moved to another interval that begins at `-1`.
-/

namespace ImmersedBody.LineRule

open Polynomial

/-- The sum of weights times values. -/
def total (line : LineRule ℝ) (f : ℝ → ℝ) : ℝ :=
  (line.map fun (weight, x) => weight * f x).sum

/-- The sum of weights times values of the rule when it is moved to the interval up to an end. -/
noncomputable def totalTo (line : LineRule ℝ) (stop : ℝ) (f : ℝ → ℝ) : ℝ :=
  let half := Scalar.half * (stop + 1)
  half * line.total fun u => f (half * u + (half - 1))

/-- Monomials up to a degree are integrated exactly. -/
def ExactTo (line : LineRule ℝ) (degree : ℕ) : Prop :=
  ∀ k ≤ degree, line.total (· ^ k) = ∫ x in (-1)..1, x ^ k

variable {line : LineRule ℝ} {degree : ℕ}

theorem total_mul_left (line : LineRule ℝ) (factor : ℝ) (f : ℝ → ℝ) :
    line.total (fun x => factor * f x) = factor * line.total f := by
  induction line with
  | nil =>
      simp [total]
  | cons point line ih =>
      simp only [total, List.map_cons, List.sum_cons] at ih ⊢
      rw [ih]
      ring

theorem total_mul_right (line : LineRule ℝ) (f : ℝ → ℝ) (factor : ℝ) :
    line.total (fun x => f x * factor) = line.total f * factor := by
  simp only [mul_comm _ factor, total_mul_left]

theorem total_sum {ι : Type} (line : LineRule ℝ) (terms : Finset ι) (f : ι → ℝ → ℝ) :
    line.total (fun x => ∑ i ∈ terms, f i x) = ∑ i ∈ terms, line.total (f i) := by
  induction line with
  | nil =>
      simp [total]
  | cons point line ih =>
      simp only [total, List.map_cons, List.sum_cons] at ih ⊢
      rw [ih, Finset.mul_sum, Finset.sum_add_distrib]

/-- Polynomials are sums of multiples of monomials. -/
theorem ExactTo.total_eval (exact : line.ExactTo degree) {P : ℝ[X]} (below : P.natDegree ≤ degree) :
    line.total (P.eval ·) = ∫ x in (-1)..1, P.eval x := by
  simp only [eval_eq_sum_range]
  rw [total_sum, intervalIntegral.integral_finsetSum]
  · apply Finset.sum_congr rfl
    intro k member
    have inRange : k ≤ degree := (Nat.lt_succ_iff.mp (Finset.mem_range.mp member)).trans below
    rw [total_mul_left, intervalIntegral.integral_const_mul, exact k inRange]
  · intro k _
    exact (continuous_const.mul (continuous_pow k)).intervalIntegrable _ _

/-- A rule stays exact when it is moved. -/
theorem ExactTo.totalTo_eval (exact : line.ExactTo degree) {P : ℝ[X]}
    (below : P.natDegree ≤ degree) (stop : ℝ) :
    line.totalTo stop (P.eval ·) = ∫ x in (-1)..stop, P.eval x := by
  let half := Scalar.half * (stop + 1)
  let moved : ℝ[X] := P.comp (C half * X + C (half - 1))
  have degree_le : moved.natDegree ≤ degree := by
    apply natDegree_comp_le.trans
    calc P.natDegree * (C half * X + C (half - 1)).natDegree
        ≤ P.natDegree * 1 := Nat.mul_le_mul_left _ natDegree_linear_le
      _ ≤ degree := by rw [Nat.mul_one]; exact below
  have eval_moved : ∀ u, moved.eval u = P.eval (half * u + (half - 1)) := by
    intro u
    simp [moved]
  calc line.totalTo stop (P.eval ·)
      = half * line.total (moved.eval ·) := by simp only [totalTo, eval_moved, half]
    _ = half * ∫ u in (-1)..1, P.eval (half * u + (half - 1)) := by
        rw [exact.total_eval degree_le]
        simp only [eval_moved]
    _ = ∫ x in (half * -1 + (half - 1))..(half * 1 + (half - 1)), P.eval x :=
        intervalIntegral.smul_integral_comp_mul_add (P.eval ·) half (half - 1)
    _ = ∫ x in (-1)..stop, P.eval x := by
        congr 1 <;> simp only [half, Scalar.half_real] <;> ring

/-! ## Some exact rules -/

/-- The Gauss rule with one point is the midpoint rule: the guess is the zero already. -/
theorem gauss_one : (gauss 1 : LineRule ℝ) = [(2, 0)] := by
  have guess : (Legendre.guessZero 1 0 : ℝ) = 0 := by
    show Real.cos (Real.pi * (((0 : ℕ) : ℝ) + ((3 : ℕ) : ℝ) / ((4 : ℕ) : ℝ)) /
      (((1 : ℕ) : ℝ) + Scalar.half)) = 0
    rw [Scalar.half_real, ← Real.cos_pi_div_two]
    congr 1
    push_cast
    ring
  have zero : (Legendre.refineZero 1 100 0 : ℝ) = 0 := by
    simp [Legendre.refineZero, Legendre.valueAndDerivative, Legendre.pair]
  simp [gauss, gaussPoint, reflected, guess, zero, Legendre.valueAndDerivative, Legendre.pair]

theorem exactTo_gauss_one : (gauss 1 : LineRule ℝ).ExactTo 1 := by
  intro k below
  rw [gauss_one, integral_pow]
  interval_cases k <;> norm_num [total]

/-- The zeros of the Legendre polynomial of degree two, with equal weights. -/
noncomputable def twoPoints : LineRule ℝ :=
  [(1, (√(3 : ℕ))⁻¹), (1, -(√(3 : ℕ))⁻¹)]

theorem exactTo_twoPoints : twoPoints.ExactTo 3 := by
  intro k below
  have square : (√3)⁻¹ ^ 2 = (3 : ℝ)⁻¹ := by
    rw [inv_pow, Real.sq_sqrt (by norm_num)]
  rw [integral_pow]
  interval_cases k
  · norm_num [twoPoints, total]
  · norm_num [twoPoints, total]
  · norm_num [twoPoints, total, square]
  · norm_num [twoPoints, total]
    ring

/-- The rule on the first numbers that integrates the polynomial through the values on them. -/
noncomputable def interpolatory (count : ℕ) : LineRule ℝ :=
  (List.finRange count).map fun i =>
    (∫ x in (-1)..1, (Lagrange.basis Finset.univ (fun j : Fin count => (j : ℝ)) i).eval x, (i : ℝ))

/-- A monomial of low degree is the polynomial through its values. -/
theorem exactTo_interpolatory {count degree : ℕ} (enough : degree < count) :
    (interpolatory count).ExactTo degree := by
  intro k below
  let node (i : Fin count) : ℝ := i
  have apart : Set.InjOn node (Finset.univ : Finset (Fin count)) := by
    intro i _ j _ same
    exact Fin.ext (Nat.cast_injective same)
  have low : (X ^ k : ℝ[X]).degree < (Finset.univ : Finset (Fin count)).card := by
    rw [degree_X_pow, Finset.card_univ, Fintype.card_fin]
    exact_mod_cast below.trans_lt enough
  have through : ∀ x : ℝ, x ^ k =
      ∑ i, node i ^ k * (Lagrange.basis Finset.univ node i).eval x := by
    intro x
    have evaluated := congrArg (eval x) (Lagrange.eq_interpolate apart low)
    simpa [Lagrange.interpolate_apply, eval_finsetSum] using evaluated
  calc (interpolatory count).total (· ^ k)
      = ∑ i, (∫ x in (-1)..1, (Lagrange.basis Finset.univ node i).eval x) * node i ^ k := by
        rw [total, interpolatory, List.map_map, Fin.sum_univ_def]
        rfl
    _ = ∑ i, ∫ x in (-1)..1, node i ^ k * (Lagrange.basis Finset.univ node i).eval x := by
        simp only [intervalIntegral.integral_const_mul, mul_comm]
    _ = ∫ x in (-1)..1, ∑ i, node i ^ k * (Lagrange.basis Finset.univ node i).eval x := by
        refine (intervalIntegral.integral_finsetSum fun i _ => ?_).symm
        exact (continuous_const.mul (Polynomial.continuous _)).intervalIntegrable _ _
    _ = ∫ x in (-1)..1, x ^ k :=
        intervalIntegral.integral_congr fun x _ => (through x).symm

/-- Exact rules for all numbers of points: Gauss rules first, then interpolation on more points. -/
noncomputable def exactFamily : ℕ → LineRule ℝ
  | 0 => []
  | 1 => gauss 1
  | 2 => twoPoints
  | n => interpolatory (2 * n)

theorem exactTo_exactFamily (n : ℕ) (positive : 1 ≤ n) :
    (exactFamily n).ExactTo (2 * n - 1) := by
  match n, positive with
  | 1, _ => exact exactTo_gauss_one
  | 2, _ => exact exactTo_twoPoints
  | n + 3, _ => exact exactTo_interpolatory (by omega)

end ImmersedBody.LineRule
