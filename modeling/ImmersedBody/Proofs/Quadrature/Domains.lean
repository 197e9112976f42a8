import Mathlib.Algebra.MvPolynomial.Equiv
import Mathlib.Analysis.SpecialFunctions.Integrals.Basic
import Mathlib.MeasureTheory.Integral.Prod
import Mathlib.Topology.Algebra.MvPolynomial
import ImmersedBody.Element.Shape
import ImmersedBody.Proofs.Reals

/-!
# Integrals over the reference domains

The reference domains of triangles and tetrahedra lie under a plane over a domain
with one direction less.  An integral over them can be carried out one direction
after the other.

Carrying out the first direction turns a polynomial into one in the remaining
directions whose degree is greater by one.  This is why the rules for later
directions have to be exact to higher degrees.
-/

namespace ImmersedBody

open MeasureTheory

/-! ## Polynomials -/

section

open MvPolynomial

variable {n degree : ℕ}

/-- Along its first variable a polynomial is one in a single variable. -/
theorem exists_section {Q : MvPolynomial (Fin (n + 1)) ℝ} (below : Q.totalDegree ≤ degree)
    (rest : Fin n → ℝ) :
    ∃ P : Polynomial ℝ, P.natDegree ≤ degree ∧ ∀ x, eval (Fin.cons x rest) Q = P.eval x := by
  refine ⟨(finSuccEquiv ℝ n Q).map (eval rest), ?_, fun x => eval_eq_eval_mv_eval' rest x Q⟩
  calc ((finSuccEquiv ℝ n Q).map (eval rest)).natDegree
      ≤ (finSuccEquiv ℝ n Q).natDegree := Polynomial.natDegree_map_le
    _ = Q.degreeOf 0 := natDegree_finSuccEquiv Q
    _ ≤ degree := (degreeOf_le_totalDegree Q 0).trans below

/--
The integral of a polynomial over its first variable, from `-1` up to a plane over the others, is
a polynomial in the others.  Its degree is greater by one.
-/
theorem exists_integral {Q : MvPolynomial (Fin (n + 1)) ℝ} (below : Q.totalDegree ≤ degree)
    {plane : MvPolynomial (Fin n) ℝ} (flat : plane.totalDegree ≤ 1) :
    ∃ R : MvPolynomial (Fin n) ℝ, R.totalDegree ≤ degree + 1 ∧ ∀ rest : Fin n → ℝ,
      ∫ x in (-1)..(eval rest plane), eval (Fin.cons x rest) Q = eval rest R := by
  let powers : ℕ → MvPolynomial (Fin n) ℝ := (finSuccEquiv ℝ n Q).coeff
  let term (k : ℕ) : MvPolynomial (Fin n) ℝ :=
    powers k * (C ((k : ℝ) + 1)⁻¹ * (plane ^ (k + 1) - C ((-1) ^ (k + 1))))
  refine ⟨∑ k ∈ Finset.range ((finSuccEquiv ℝ n Q).natDegree + 1), term k, ?_, ?_⟩
  · apply totalDegree_finsetSum_le
    intro k _
    by_cases absent : powers k = 0
    · simp [term, absent]
    · have power : (plane ^ (k + 1) - C ((-1) ^ (k + 1))).totalDegree ≤ k + 1 := by
        apply (totalDegree_sub_C_le _ _).trans
        calc (plane ^ (k + 1)).totalDegree
            ≤ (k + 1) * plane.totalDegree := totalDegree_pow _ _
          _ ≤ (k + 1) * 1 := Nat.mul_le_mul_left _ flat
          _ = k + 1 := Nat.mul_one _
      have scaled : (C ((k : ℝ) + 1)⁻¹ * (plane ^ (k + 1) - C ((-1) ^ (k + 1)))).totalDegree ≤
          k + 1 := by
        apply (totalDegree_mul _ _).trans
        rw [totalDegree_C, Nat.zero_add]
        exact power
      have coefficient := totalDegree_coeff_finSuccEquiv_add_le Q k absent
      calc (term k).totalDegree
          ≤ (powers k).totalDegree + (k + 1) :=
            (totalDegree_mul _ _).trans (Nat.add_le_add_left scaled _)
        _ ≤ degree + 1 := Nat.succ_le_succ (coefficient.trans below)
  · intro rest
    simp only [eval_eq_eval_mv_eval', Polynomial.eval_map, Polynomial.eval₂_eq_sum_range]
    rw [intervalIntegral.integral_finsetSum]
    · rw [map_sum]
      apply Finset.sum_congr rfl
      intro k _
      rw [intervalIntegral.integral_const_mul, integral_pow]
      simp only [term, powers, map_mul, map_sub, map_pow, eval_C]
      ring
    · intro k _
      exact (continuous_const.mul (continuous_pow k)).intervalIntegrable _ _

end

/-! ## Domains -/

namespace Shape

/-- A point is in the reference domain; that of a plane shape has no third direction. -/
def Inside : Shape → Vec3 ℝ → Prop
  | triangle, ξ => -1 ≤ ξ.x ∧ -1 ≤ ξ.y ∧ ξ.x + ξ.y ≤ 0
  | quadrilateral, ξ => (-1 ≤ ξ.x ∧ ξ.x ≤ 1) ∧ (-1 ≤ ξ.y ∧ ξ.y ≤ 1)
  | tetrahedron, ξ => -1 ≤ ξ.x ∧ -1 ≤ ξ.y ∧ -1 ≤ ξ.z ∧ 1 + ξ.x + ξ.y + ξ.z ≤ 0
  | hexahedron, ξ => (-1 ≤ ξ.x ∧ ξ.x ≤ 1) ∧ (-1 ≤ ξ.y ∧ ξ.y ≤ 1) ∧ (-1 ≤ ξ.z ∧ ξ.z ≤ 1)

theorem hat_nonneg_iff {x : ℝ} : (0 ≤ hat (-1) x ∧ 0 ≤ hat 1 x) ↔ -1 ≤ x ∧ x ≤ 1 := by
  simp only [hat, Scalar.half_real]
  constructor
  · rintro ⟨left, right⟩
    constructor <;> linarith
  · rintro ⟨low, high⟩
    constructor <;> linarith

theorem hat_add_hat (x : ℝ) : hat (-1) x + hat 1 x = 1 := by
  simp only [hat, Scalar.half_real]
  ring

/-- The reference domain is where no basis function is negative. -/
theorem inside_iff_basis_nonneg (shape : Shape) (ξ : Vec3 ℝ) :
    shape.Inside ξ ↔ ∀ value ∈ shape.basis ξ, 0 ≤ value := by
  have sumX := eq_sub_of_add_eq (hat_add_hat ξ.x)
  have sumY := eq_sub_of_add_eq (hat_add_hat ξ.y)
  have sumZ := eq_sub_of_add_eq (hat_add_hat ξ.z)
  cases shape with
  | triangle =>
      simp only [Inside, basis, Vector.mem_mk, List.mem_toArray, List.mem_cons, List.not_mem_nil,
        or_false, forall_eq_or_imp, forall_eq, Scalar.half_real]
      constructor
      · rintro ⟨x, y, sum⟩
        refine ⟨?_, ?_, ?_⟩ <;> linarith
      · rintro ⟨sum, x, y⟩
        refine ⟨?_, ?_, ?_⟩ <;> linarith
  | quadrilateral =>
      simp only [Inside, basis, squareCorners, ← hat_nonneg_iff, Vector.map_mk, List.map_toArray,
        List.map_cons, List.map_nil, Vector.mem_mk, List.mem_toArray, List.mem_cons,
        List.not_mem_nil, or_false, forall_eq_or_imp, forall_eq]
      constructor
      · rintro ⟨⟨x, x'⟩, y, y'⟩
        exact ⟨mul_nonneg x y, mul_nonneg x' y, mul_nonneg x' y', mul_nonneg x y'⟩
      · -- each factor is a sum of products, since the two in the other direction add up to one
        rw [sumX, sumY]
        rintro ⟨h₀, h₁, h₂, h₃⟩
        refine ⟨⟨?_, ?_⟩, ?_, ?_⟩ <;> linarith
  | tetrahedron =>
      simp only [Inside, basis, Vector.mem_mk, List.mem_toArray, List.mem_cons, List.not_mem_nil,
        or_false, forall_eq_or_imp, forall_eq, Scalar.half_real]
      constructor
      · rintro ⟨x, y, z, sum⟩
        refine ⟨?_, ?_, ?_, ?_⟩ <;> linarith
      · rintro ⟨sum, x, y, z⟩
        refine ⟨?_, ?_, ?_, ?_⟩ <;> linarith
  | hexahedron =>
      simp only [Inside, basis, cubeCorners, ← hat_nonneg_iff, Vector.map_mk, List.map_toArray,
        List.map_cons, List.map_nil, Vector.mem_mk, List.mem_toArray, List.mem_cons,
        List.not_mem_nil, or_false, forall_eq_or_imp, forall_eq]
      constructor
      · rintro ⟨⟨x, x'⟩, ⟨y, y'⟩, z, z'⟩
        refine ⟨?_, ?_, ?_, ?_, ?_, ?_, ?_, ?_⟩ <;> positivity
      · rw [sumX, sumY, sumZ]
        rintro ⟨h₀, h₁, h₂, h₃, h₄, h₅, h₆, h₇⟩
        refine ⟨⟨?_, ?_⟩, ⟨?_, ?_⟩, ?_, ?_⟩ <;> linarith

/-- The integral of a function over the reference domain. -/
noncomputable def integral (shape : Shape) (f : Vec3 ℝ → ℝ) : ℝ :=
  match shape.dim with
  | .two => ∫ q in {q : ℝ × ℝ | shape.Inside ⟨q.1, q.2, 0⟩}, f ⟨q.1, q.2, 0⟩
  | .three => ∫ q in {q : ℝ × ℝ × ℝ | shape.Inside ⟨q.1, q.2.1, q.2.2⟩}, f ⟨q.1, q.2.1, q.2.2⟩

end Shape

/-! ## Integrals -/

/--
An integral over the points between `-1` and a plane over some base is one over the base of
integrals upwards.
-/
theorem setIntegral_between {E : Type} [MeasureSpace E] [SFinite (volume : Measure E)]
    {base : Set E} {domain : Set (ℝ × E)} (plane : E → ℝ) (f : ℝ × E → ℝ)
    (mem_iff : ∀ q, q ∈ domain ↔ q.2 ∈ base ∧ q.1 ∈ Set.Icc (-1) (plane q.2))
    (above : ∀ r ∈ base, -1 ≤ plane r) (measurableBase : MeasurableSet base)
    (measurable : MeasurableSet domain) (integrable : IntegrableOn f domain) :
    ∫ q in domain, f q = ∫ r in base, ∫ x in (-1)..(plane r), f (x, r) := by
  have slice : ∀ r, ∫ x, domain.indicator f (x, r) =
      base.indicator (fun r => ∫ x in (-1)..(plane r), f (x, r)) r := by
    intro r
    by_cases inside : r ∈ base
    · have along : (fun x => domain.indicator f (x, r)) =
          (Set.Icc (-1) (plane r)).indicator fun x => f (x, r) := by
        funext x
        simp only [Set.indicator, mem_iff, inside, true_and]
      rw [along, integral_indicator measurableSet_Icc, integral_Icc_eq_integral_Ioc,
        Set.indicator_of_mem inside, intervalIntegral.integral_of_le (above r inside)]
    · have along : (fun x => domain.indicator f (x, r)) = 0 := by
        funext x
        simp [Set.indicator, mem_iff, inside]
      rw [along, Set.indicator_of_notMem inside]
      simp
  calc ∫ q in domain, f q
      = ∫ q, domain.indicator f q := (integral_indicator measurable).symm
    _ = ∫ r, ∫ x, domain.indicator f (x, r) := by
        rw [Measure.volume_eq_prod]
        exact integral_prod_symm _ ((integrable_indicator_iff measurable).mpr integrable)
    _ = ∫ r in base, ∫ x in (-1)..(plane r), f (x, r) := by
        simp only [slice]
        exact integral_indicator measurableBase

namespace Shape

theorem isCompact_triangle : IsCompact {q : ℝ × ℝ | triangle.Inside ⟨q.1, q.2, 0⟩} := by
  have bounded : {q : ℝ × ℝ | triangle.Inside ⟨q.1, q.2, 0⟩} ⊆
      Set.Icc (-1) 1 ×ˢ Set.Icc (-1) 1 := by
    rintro q ⟨x, y, sum⟩
    exact ⟨⟨x, by linarith⟩, ⟨y, by linarith⟩⟩
  refine (isCompact_Icc.prod isCompact_Icc).of_isClosed_subset ?_ bounded
  simp only [Inside, Set.ofPred_and]
  refine (isClosed_le ?_ ?_).inter ((isClosed_le ?_ ?_).inter (isClosed_le ?_ ?_)) <;> fun_prop

theorem isCompact_tetrahedron :
    IsCompact {q : ℝ × ℝ × ℝ | tetrahedron.Inside ⟨q.1, q.2.1, q.2.2⟩} := by
  have bounded : {q : ℝ × ℝ × ℝ | tetrahedron.Inside ⟨q.1, q.2.1, q.2.2⟩} ⊆
      Set.Icc (-1) 1 ×ˢ Set.Icc (-1) 1 ×ˢ Set.Icc (-1) 1 := by
    rintro q ⟨x, y, z, sum⟩
    exact ⟨⟨x, by linarith⟩, ⟨y, by linarith⟩, ⟨z, by linarith⟩⟩
  refine (isCompact_Icc.prod (isCompact_Icc.prod isCompact_Icc)).of_isClosed_subset ?_ bounded
  simp only [Inside, Set.ofPred_and]
  refine (isClosed_le ?_ ?_).inter ((isClosed_le ?_ ?_).inter ((isClosed_le ?_ ?_).inter
    (isClosed_le ?_ ?_))) <;> fun_prop

/-- An integral over the triangle is carried out along the first direction first. -/
theorem integral_triangle {f : Vec3 ℝ → ℝ}
    (continuous : Continuous fun q : ℝ × ℝ => f ⟨q.1, q.2, 0⟩) :
    triangle.integral f = ∫ y in (-1)..1, ∫ x in (-1)..(-y), f ⟨x, y, 0⟩ := by
  rw [intervalIntegral.integral_of_le (by norm_num), ← integral_Icc_eq_integral_Ioc]
  apply setIntegral_between (fun y => -y) fun q : ℝ × ℝ => f ⟨q.1, q.2, 0⟩
  · intro q
    simp only [Inside, Set.mem_ofPred_eq, Set.mem_Icc]
    constructor
    · rintro ⟨x, y, sum⟩
      exact ⟨⟨y, by linarith⟩, x, by linarith⟩
    · rintro ⟨⟨y, -⟩, x, top⟩
      exact ⟨x, y, by linarith⟩
  · rintro y ⟨-, top⟩
    linarith
  · exact measurableSet_Icc
  · exact isCompact_triangle.measurableSet
  · exact continuous.continuousOn.integrableOn_compact isCompact_triangle

/-- An integral over the tetrahedron is one over the triangle of integrals upwards. -/
theorem integral_tetrahedron {f : Vec3 ℝ → ℝ}
    (continuous : Continuous fun q : ℝ × ℝ × ℝ => f ⟨q.1, q.2.1, q.2.2⟩) :
    tetrahedron.integral f =
      triangle.integral fun ξ => ∫ x in (-1)..(-1 - ξ.x - ξ.y), f ⟨x, ξ.x, ξ.y⟩ := by
  apply setIntegral_between (fun r : ℝ × ℝ => -1 - r.1 - r.2)
    fun q : ℝ × ℝ × ℝ => f ⟨q.1, q.2.1, q.2.2⟩
  · intro q
    simp only [Inside, Set.mem_ofPred_eq, Set.mem_Icc]
    constructor
    · rintro ⟨x, y, z, sum⟩
      exact ⟨⟨y, z, by linarith⟩, x, by linarith⟩
    · rintro ⟨⟨y, z, -⟩, x, top⟩
      exact ⟨x, y, z, by linarith⟩
  · rintro r ⟨-, -, sum⟩
    linarith
  · exact isCompact_triangle.measurableSet
  · exact isCompact_tetrahedron.measurableSet
  · exact continuous.continuousOn.integrableOn_compact isCompact_tetrahedron

/-- An integral over the square is carried out along the first direction first. -/
theorem integral_quadrilateral {f : Vec3 ℝ → ℝ}
    (continuous : Continuous fun q : ℝ × ℝ => f ⟨q.1, q.2, 0⟩) :
    quadrilateral.integral f = ∫ y in (-1)..1, ∫ x in (-1)..1, f ⟨x, y, 0⟩ := by
  have compact : IsCompact {q : ℝ × ℝ | quadrilateral.Inside ⟨q.1, q.2, 0⟩} :=
    isCompact_Icc.prod isCompact_Icc
  rw [intervalIntegral.integral_of_le (by norm_num), ← integral_Icc_eq_integral_Ioc]
  apply setIntegral_between (fun _ => 1) fun q : ℝ × ℝ => f ⟨q.1, q.2, 0⟩
  · intro q
    exact And.comm
  · intro y _
    norm_num
  · exact measurableSet_Icc
  · exact compact.measurableSet
  · exact continuous.continuousOn.integrableOn_compact compact

/-- An integral of a product over the square is a product of integrals. -/
theorem integral_quadrilateral_mul (f g : ℝ → ℝ) :
    quadrilateral.integral (fun ξ => f ξ.x * g ξ.y) =
      (∫ x in (-1)..1, f x) * ∫ y in (-1)..1, g y := by
  have one : (-1 : ℝ) ≤ 1 := by norm_num
  simp only [intervalIntegral.integral_of_le one, ← integral_Icc_eq_integral_Ioc]
  rw [← setIntegral_prod_mul f g]
  rfl

/-- An integral of a product over the cube is a product of integrals. -/
theorem integral_hexahedron_mul (f g h : ℝ → ℝ) :
    hexahedron.integral (fun ξ => f ξ.x * (g ξ.y * h ξ.z)) =
      (∫ x in (-1)..1, f x) * ((∫ y in (-1)..1, g y) * ∫ z in (-1)..1, h z) := by
  have one : (-1 : ℝ) ≤ 1 := by norm_num
  simp only [intervalIntegral.integral_of_le one, ← integral_Icc_eq_integral_Ioc]
  rw [← setIntegral_prod_mul g h, ← setIntegral_prod_mul f]
  rfl

end Shape

end ImmersedBody
