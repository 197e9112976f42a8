import Mathlib.Algebra.Polynomial.Derivative
import Mathlib.Tactic.LinearCombination
import ImmersedBody.Proofs.Reals
import ImmersedBody.Quadrature.Line

/-!
# Legendre polynomials

The value of a Legendre polynomial at a point is computed by a recurrence over the
degree, which keeps two consecutive values.  The derivative is not carried along, but
is read off the last two values.  Two identities between consecutive polynomials and
their derivatives make this possible, and each step of the recurrence keeps both.

One of them also holds for the derivatives of the powers of `X ^ 2 - 1`.  It determines
a polynomial up to its value at one, so that the recurrence yields what Rodrigues'
formula defines.  The main theorem is `valueAndDerivative_eq_eval`.
-/

namespace ImmersedBody.Legendre

open Polynomial
open scoped Nat

/-- The polynomials of the recurrence that `pair` follows at a point. -/
noncomputable def polynomial : ℕ → ℝ[X]
  | 0 => 1
  | 1 => X
  | n + 2 =>
    C ((n + 2 : ℕ) : ℝ)⁻¹ *
      (((2 * n + 3 : ℕ) : ℝ[X]) * X * polynomial (n + 1) - ((n + 1 : ℕ) : ℝ[X]) * polynomial n)

theorem mul_polynomial_add_two (n : ℕ) :
    (n + 2 : ℝ[X]) * polynomial (n + 2) =
      (2 * n + 3 : ℝ[X]) * X * polynomial (n + 1) - (n + 1 : ℝ[X]) * polynomial n := by
  have nonzero : ((n + 2 : ℕ) : ℝ) ≠ 0 := Nat.cast_ne_zero.mpr (Nat.succ_ne_zero (n + 1))
  have constant : (n + 2 : ℝ[X]) = C ((n + 2 : ℕ) : ℝ) := by
    rw [C_eq_natCast, Nat.cast_add, Nat.cast_ofNat]
  rw [polynomial, ← mul_assoc, constant, ← C_mul, mul_inv_cancel₀ nonzero, C_1, one_mul]
  push_cast
  rfl

theorem mul_eval_add_two (n : ℕ) (x : ℝ) :
    (n + 2 : ℝ) * (polynomial (n + 2)).eval x =
      (2 * n + 3 : ℝ) * x * (polynomial (n + 1)).eval x - (n + 1 : ℝ) * (polynomial n).eval x := by
  have evaluated := congrArg (eval x) (mul_polynomial_add_two n)
  simpa only [eval_mul, eval_sub, eval_add, eval_natCast, eval_ofNat, eval_one, eval_X] using
    evaluated

theorem pair_eq_eval (x : ℝ) (n : ℕ) :
    pair x n = ((polynomial n).eval x, (polynomial (n + 1)).eval x) := by
  induction n with
  | zero =>
      simp [pair, polynomial]
  | succ n ih =>
      rw [pair, ih]
      refine Prod.ext rfl ?_
      have positive : (0 : ℝ) < n + 1 + 1 := by positivity
      push_cast
      rw [div_eq_iff positive.ne']
      linear_combination -mul_eval_add_two n x

theorem eval_one_polynomial (n : ℕ) : (polynomial n).eval 1 = 1 := by
  induction n using Nat.twoStepInduction with
  | zero =>
      simp [polynomial]
  | one =>
      simp [polynomial]
  | more n value value' =>
      have positive : (0 : ℝ) < n + 2 := by positivity
      apply mul_left_cancel₀ positive.ne'
      rw [mul_eval_add_two, value, value']
      ring

/-! ## Derivatives -/

theorem mul_derivative_add_two (n : ℕ) :
    (n + 2 : ℝ[X]) * derivative (polynomial (n + 2)) =
      (2 * n + 3 : ℝ[X]) * (polynomial (n + 1) + X * derivative (polynomial (n + 1))) -
        (n + 1 : ℝ[X]) * derivative (polynomial n) := by
  have differentiated := congrArg derivative (mul_polynomial_add_two n)
  simp only [derivative_mul, derivative_sub, derivative_add, derivative_natCast, derivative_ofNat,
    derivative_one, derivative_X] at differentiated
  linear_combination differentiated

/-- Two polynomials with companion derivatives determine the derivative of the second one. -/
theorem mul_derivative_of_companions {before value factor : ℝ[X]}
    (raised : derivative value = X * derivative before + factor * before)
    (lowered : X * derivative value - derivative before = factor * value) :
    (X ^ 2 - 1) * derivative value = factor * (X * value - before) := by
  linear_combination X * lowered - raised

/-- What each step of the recurrence keeps of two consecutive polynomials. -/
theorem derivative_companions (n : ℕ) :
    derivative (polynomial (n + 1)) =
        X * derivative (polynomial n) + (n + 1 : ℝ[X]) * polynomial n ∧
      X * derivative (polynomial (n + 1)) - derivative (polynomial n) =
        (n + 1 : ℝ[X]) * polynomial (n + 1) := by
  induction n with
  | zero =>
      simp [polynomial]
  | succ n ih =>
      rcases ih with ⟨raised, lowered⟩
      have nonzero : (n + 2 : ℝ[X]) ≠ 0 := by exact_mod_cast Nat.succ_ne_zero (n + 1)
      -- the older derivative is eliminated from the differentiated recurrence
      have raised' : derivative (polynomial (n + 2)) =
          X * derivative (polynomial (n + 1)) + (n + 2 : ℝ[X]) * polynomial (n + 1) := by
        apply mul_left_cancel₀ nonzero
        linear_combination mul_derivative_add_two n + (n + 1 : ℝ[X]) * lowered
      have lowered' : X * derivative (polynomial (n + 2)) - derivative (polynomial (n + 1)) =
          (n + 2 : ℝ[X]) * polynomial (n + 2) := by
        have determined := mul_derivative_of_companions raised lowered
        linear_combination X * raised' + determined - mul_polynomial_add_two n
      have factor : (((n + 1 : ℕ) : ℝ[X]) + 1) = n + 2 := by
        push_cast
        ring
      rw [factor]
      exact ⟨raised', lowered'⟩

theorem mul_derivative_succ (n : ℕ) :
    (X ^ 2 - 1) * derivative (polynomial (n + 1)) =
      (n + 1 : ℝ[X]) * (X * polynomial (n + 1) - polynomial n) :=
  mul_derivative_of_companions (derivative_companions n).1 (derivative_companions n).2

/-! ## Rodrigues' formula -/

/-- Derivatives of consecutive powers of `X ^ 2 - 1`. -/
theorem iterate_derivative_pow_succ (n k : ℕ) :
    derivative^[k + 1] ((X ^ 2 - 1 : ℝ[X]) ^ (n + 1)) =
      ((2 * (n + 1) : ℕ) : ℝ[X]) * (derivative^[k] ((X ^ 2 - 1 : ℝ[X]) ^ n) * X +
        (k : ℝ[X]) * derivative^[k - 1] ((X ^ 2 - 1 : ℝ[X]) ^ n)) := by
  have once : derivative ((X ^ 2 - 1 : ℝ[X]) ^ (n + 1)) =
      ((2 * (n + 1) : ℕ) : ℝ[X]) * ((X ^ 2 - 1 : ℝ[X]) ^ n * X) := by
    rw [derivative_pow_succ, derivative_sub, derivative_X_pow, derivative_one]
    simp only [C_add, C_1, C_eq_natCast]
    push_cast
    ring
  rw [Function.iterate_succ_apply, once, iterate_derivative_natCast_mul, iterate_derivative_mul_X,
    nsmul_eq_mul]

/-- A power has a zero at one, which derivatives of a lower order still have. -/
theorem eval_one_iterate_derivative_of_lt {n k : ℕ} (lower : k < n) :
    (derivative^[k] ((X ^ 2 - 1 : ℝ[X]) ^ n)).eval 1 = 0 := by
  have divides : (X ^ 2 - 1 : ℝ[X]) ∣ derivative^[k] ((X ^ 2 - 1) ^ n) :=
    (dvd_pow_self _ (Nat.sub_ne_zero_of_lt lower)).trans
      (pow_sub_dvd_iterate_derivative_pow (X ^ 2 - 1) n k)
  exact eval_eq_zero_of_dvd_of_eval_eq_zero divides (by simp)

theorem eval_one_iterate_derivative (n : ℕ) :
    (derivative^[n] ((X ^ 2 - 1 : ℝ[X]) ^ n)).eval 1 = (2 ^ n * n ! : ℕ) := by
  induction n with
  | zero =>
      simp
  | succ n ih =>
      have vanishes : (n : ℝ) * (derivative^[n - 1] ((X ^ 2 - 1 : ℝ[X]) ^ n)).eval 1 = 0 := by
        rcases n.eq_zero_or_pos with rfl | positive
        · simp
        · rw [eval_one_iterate_derivative_of_lt (Nat.sub_one_lt positive.ne'), mul_zero]
      rw [iterate_derivative_pow_succ, eval_mul, eval_add, eval_mul, eval_mul, ih, eval_natCast,
        eval_natCast, eval_X, vanishes, Nat.factorial_succ]
      push_cast
      ring

/-- A polynomial is determined by its derivative and its value at one point. -/
theorem eq_of_derivative_eq {P Q : ℝ[X]} (x : ℝ) (sameDerivative : derivative P = derivative Q)
    (sameValue : P.eval x = Q.eval x) : P = Q := by
  have constant : P - Q = C ((P - Q).coeff 0) := by
    apply eq_C_of_derivative_eq_zero
    rw [derivative_sub, sameDerivative, sub_self]
  have zero : (P - Q).coeff 0 = 0 := by
    have value := congrArg (eval x) constant
    rw [eval_C, eval_sub, sameValue, sub_self] at value
    exact value.symm
  rw [zero, C_0] at constant
  exact sub_eq_zero.mp constant

/-- Rodrigues' formula for the polynomials of the recurrence. -/
theorem factorial_mul_polynomial (n : ℕ) :
    ((2 ^ n * n ! : ℕ) : ℝ[X]) * polynomial n = derivative^[n] ((X ^ 2 - 1 : ℝ[X]) ^ n) := by
  induction n with
  | zero =>
      simp [polynomial]
  | succ n ih =>
      refine eq_of_derivative_eq 1 ?_ ?_
      · rw [← Function.iterate_succ_apply' derivative, iterate_derivative_pow_succ,
          Nat.add_sub_cancel, Function.iterate_succ_apply', ← ih, derivative_natCast_mul,
          derivative_natCast_mul, (derivative_companions n).1, Nat.factorial_succ]
        push_cast
        ring
      · rw [eval_mul, eval_natCast, eval_one_polynomial, mul_one, eval_one_iterate_derivative]

/-! ## The computed values -/

/--
What is computed at a point with `x * x ≠ 1` are the values there of the polynomial of the
recurrence and of its derivative, and this polynomial is the Legendre polynomial of the degree.
-/
theorem valueAndDerivative_eq_eval (degree : ℕ) (x : ℝ) (inner : x * x ≠ 1) :
    valueAndDerivative degree x =
        ((polynomial degree).eval x, (derivative (polynomial degree)).eval x) ∧
      ((2 ^ degree * degree ! : ℕ) : ℝ[X]) * polynomial degree =
        derivative^[degree] ((X ^ 2 - 1 : ℝ[X]) ^ degree) := by
  refine ⟨?_, factorial_mul_polynomial degree⟩
  cases degree with
  | zero =>
      simp [valueAndDerivative, polynomial]
  | succ n =>
      rw [valueAndDerivative, pair_eq_eval]
      refine Prod.ext rfl ?_
      have identity := congrArg (eval x) (mul_derivative_succ n)
      simp only [eval_mul, eval_sub, eval_add, eval_pow, eval_natCast, eval_one, eval_X] at identity
      push_cast
      rw [div_eq_iff (sub_ne_zero.mpr inner)]
      linear_combination -identity

/-- The value and the slope of the cubic Legendre polynomial at one half. -/
theorem valueAndDerivative_eq_eval_cubic :
    (1 / 2 * (1 / 2) : ℝ) ≠ 1 ∧
      valueAndDerivative 3 (1 / 2 : ℝ) =
        ((polynomial 3).eval (1 / 2), (derivative (polynomial 3)).eval (1 / 2)) ∧
      valueAndDerivative 3 (1 / 2 : ℝ) = (-7 / 16, 3 / 8) ∧
      (48 : ℝ[X]) * polynomial 3 = derivative^[3] ((X ^ 2 - 1 : ℝ[X]) ^ 3) := by
  have inner : (1 / 2 * (1 / 2) : ℝ) ≠ 1 := by norm_num
  rcases valueAndDerivative_eq_eval 3 (1 / 2) inner with ⟨values, formula⟩
  refine ⟨inner, values, ?_, ?_⟩
  · norm_num [valueAndDerivative, pair]
  · exact_mod_cast formula

end ImmersedBody.Legendre
