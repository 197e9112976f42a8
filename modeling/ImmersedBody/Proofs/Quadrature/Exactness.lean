import ImmersedBody.Proofs.Quadrature.Domains
import ImmersedBody.Proofs.Quadrature.Lines

/-!
# Exact rules on the reference elements

Rules on the reference elements are built from rules on an interval.  A product rule
sums one direction after the other.  So does a collapsed rule, in which a direction
goes up to the plane that bounds the domain.  The sum over the first direction of a
tetrahedron leaves a sum over a triangle, with a polynomial of one degree more, and
integrals over the reference domains do the same.

The main result is `Shape.ruleFrom_exact`: rules from exact rules on the interval
are exact for what their shape and strength promise.
-/

namespace ImmersedBody

open MvPolynomial

namespace QuadratureRule

variable {line : LineRule ℝ} {f : Vec3 ℝ → ℝ} {g : ℝ → ℝ}

theorem integrate_eq_sum (rule : QuadratureRule ℝ) (f : Vec3 ℝ → ℝ) :
    rule.integrate f = (rule.points.map fun q => q.weight * f q.point).sum := by
  have start : -(0 : ℝ) = 0 := neg_zero
  rw [List.sum_eq_foldl, List.foldl_map, ← start]
  rfl

/-- A sum over the points of a line, each with its own weight. -/
theorem integrate_map {point : LinePoint ℝ → QuadraturePoint ℝ}
    (each : ∀ w x, (point (w, x)).weight * f (point (w, x)).point = w * g x) :
    integrate ⟨line.map point⟩ f = line.total g := by
  rw [integrate_eq_sum, List.map_map, LineRule.total]
  congr 1
  exact List.map_congr_left fun wx _ => each wx.1 wx.2

/-- A sum over lines that are themselves lined up. -/
theorem integrate_flatMap {points : LinePoint ℝ → List (QuadraturePoint ℝ)}
    (each : ∀ w x, integrate ⟨points (w, x)⟩ f = w * g x) :
    integrate ⟨line.flatMap points⟩ f = line.total g := by
  rw [integrate_eq_sum, LineRule.total]
  induction line with
  | nil =>
      rfl
  | cons point line ih =>
      rcases point with ⟨w, x⟩
      have here : ((points (w, x)).map fun q => q.weight * f q.point).sum = w * g x :=
        (integrate_eq_sum _ f).symm.trans (each w x)
      rw [List.flatMap_cons, List.map_append, List.sum_append, ih, List.map_cons, List.sum_cons,
        here]

theorem integrate_square (line : LineRule ℝ) (f : Vec3 ℝ → ℝ) :
    (square line).integrate f = line.total fun y => line.total fun x => f ⟨x, y, 0⟩ := by
  rw [square]
  apply integrate_flatMap
  intro wy y
  rw [← LineRule.total_mul_left]
  apply integrate_map
  intro wx x
  ring

theorem integrate_cube (line : LineRule ℝ) (f : Vec3 ℝ → ℝ) :
    (cube line).integrate f =
      line.total fun z => line.total fun y => line.total fun x => f ⟨x, y, z⟩ := by
  rw [cube]
  apply integrate_flatMap
  intro wz z
  rw [← LineRule.total_mul_left]
  apply integrate_flatMap
  intro wy y
  rw [← LineRule.total_mul_left, ← LineRule.total_mul_left]
  apply integrate_map
  intro wx x
  ring

/-- The first direction of a collapsed square goes up to the diagonal. -/
theorem integrate_collapsedSquare (first second : LineRule ℝ) (f : Vec3 ℝ → ℝ) :
    (collapsedSquare first second).integrate f =
      second.total fun y => first.totalTo (-y) fun x => f ⟨x, y, 0⟩ := by
  rw [collapsedSquare]
  apply integrate_flatMap
  intro wv v
  rw [LineRule.totalTo, ← LineRule.total_mul_left, ← LineRule.total_mul_left]
  apply integrate_map
  intro wu u
  have x_eq : 1 / 2 * (1 + u) * (1 - v) - 1 = 1 / 2 * (-v + 1) * u + (1 / 2 * (-v + 1) - 1) := by
    ring
  simp only [Scalar.half_real, x_eq]
  ring

/--
The first direction of a collapsed cube goes up to a plane.  What remains is a collapsed square in
the other directions.
-/
theorem integrate_collapsedCube (first second third : LineRule ℝ) (f : Vec3 ℝ → ℝ) :
    (collapsedCube first second third).integrate f =
      (collapsedSquare second third).integrate fun ξ =>
        first.totalTo (-1 - ξ.x - ξ.y) fun x => f ⟨x, ξ.x, ξ.y⟩ := by
  rw [integrate_collapsedSquare, collapsedCube]
  apply integrate_flatMap
  intro ww w
  rw [LineRule.totalTo, ← LineRule.total_mul_left, ← LineRule.total_mul_left]
  apply integrate_flatMap
  intro wv v
  simp only [LineRule.totalTo, ← LineRule.total_mul_left]
  apply integrate_map
  intro wu u
  have y_eq : 1 / 2 * (1 + v) * (1 - w) - 1 = 1 / 2 * (-w + 1) * v + (1 / 2 * (-w + 1) - 1) := by
    ring
  have x_eq : 1 / 4 * (1 + u) * (1 - v) * (1 - w) - 1 =
      1 / 2 * (-1 - (1 / 2 * (-w + 1) * v + (1 / 2 * (-w + 1) - 1)) - w + 1) * u +
        (1 / 2 * (-1 - (1 / 2 * (-w + 1) * v + (1 / 2 * (-w + 1) - 1)) - w + 1) - 1) := by
    ring
  simp only [Scalar.half_real, Scalar.quarter_real, Scalar.eighth_real, x_eq, y_eq]
  ring

/-! ## Polynomials -/

variable {degree : ℕ}

/-- The sum of a rule up to a plane is the integral of a polynomial up to the plane. -/
theorem totalTo_section {n : ℕ} (exact : line.ExactTo degree) {Q : MvPolynomial (Fin (n + 1)) ℝ}
    (below : Q.totalDegree ≤ degree) (stop : ℝ) (rest : Fin n → ℝ) :
    line.totalTo stop (fun x => eval (Fin.cons x rest) Q) =
      ∫ x in (-1)..stop, eval (Fin.cons x rest) Q := by
  rcases exists_section below rest with ⟨P, degree_le, eval_eq⟩
  simp only [eval_eq]
  exact exact.totalTo_eval degree_le stop

theorem total_section {n : ℕ} (exact : line.ExactTo degree) {Q : MvPolynomial (Fin (n + 1)) ℝ}
    (below : Q.totalDegree ≤ degree) (rest : Fin n → ℝ) :
    line.total (fun x => eval (Fin.cons x rest) Q) =
      ∫ x in (-1)..1, eval (Fin.cons x rest) Q := by
  rcases exists_section below rest with ⟨P, degree_le, eval_eq⟩
  simp only [eval_eq]
  exact exact.total_eval degree_le

/-- Collapsed squares integrate polynomials over the triangle. -/
theorem collapsedSquare_exact {first second : LineRule ℝ} (exactFirst : first.ExactTo degree)
    (exactSecond : second.ExactTo (degree + 1)) {Q : MvPolynomial (Fin 2) ℝ}
    (below : Q.totalDegree ≤ degree) :
    (collapsedSquare first second).integrate (fun ξ => eval ![ξ.x, ξ.y] Q) =
      Shape.triangle.integral fun ξ => eval ![ξ.x, ξ.y] Q := by
  have flat : (-X 0 : MvPolynomial (Fin 1) ℝ).totalDegree ≤ 1 := by
    rw [totalDegree_neg, totalDegree_X]
  rcases exists_integral below flat with ⟨R, degree_le, integral_eq⟩
  have inner : ∀ y, ∫ x in (-1)..(-y), eval ![x, y] Q = eval ![y] R := by
    intro y
    have upward := integral_eq ![y]
    simp only [map_neg, eval_X, Matrix.cons_val_zero] at upward
    exact upward
  have summed : ∀ y, first.totalTo (-y) (fun x => eval ![x, y] Q) = eval ![y] R := by
    intro y
    rw [← inner]
    exact totalTo_section exactFirst below (-y) ![y]
  calc (collapsedSquare first second).integrate (fun ξ => eval ![ξ.x, ξ.y] Q)
      = second.total fun y => eval ![y] R := by
        rw [integrate_collapsedSquare]
        simp only [summed]
    _ = ∫ y in (-1)..1, eval ![y] R := total_section exactSecond degree_le ![]
    _ = ∫ y in (-1)..1, ∫ x in (-1)..(-y), eval ![x, y] Q := by simp only [inner]
    _ = Shape.triangle.integral fun ξ => eval ![ξ.x, ξ.y] Q := by
        rw [Shape.integral_triangle]
        exact (continuous_eval Q).comp (by fun_prop)

/-- Collapsed cubes integrate polynomials over the tetrahedron. -/
theorem collapsedCube_exact {first second third : LineRule ℝ}
    (exactFirst : first.ExactTo degree) (exactSecond : second.ExactTo (degree + 1))
    (exactThird : third.ExactTo (degree + 2)) {Q : MvPolynomial (Fin 3) ℝ}
    (below : Q.totalDegree ≤ degree) :
    (collapsedCube first second third).integrate (fun ξ => eval ![ξ.x, ξ.y, ξ.z] Q) =
      Shape.tetrahedron.integral fun ξ => eval ![ξ.x, ξ.y, ξ.z] Q := by
  have flat : (-1 - X 0 - X 1 : MvPolynomial (Fin 2) ℝ).totalDegree ≤ 1 := by
    have one : (-1 : MvPolynomial (Fin 2) ℝ).totalDegree = 0 := by
      rw [totalDegree_neg, totalDegree_one]
    apply (totalDegree_sub _ _).trans
    apply max_le
    · apply (totalDegree_sub _ _).trans
      rw [one, totalDegree_X]
      exact le_rfl
    · exact (totalDegree_X 1).le
  rcases exists_integral below flat with ⟨R, degree_le, integral_eq⟩
  have inner : ∀ y z, ∫ x in (-1)..(-1 - y - z), eval ![x, y, z] Q = eval ![y, z] R := by
    intro y z
    have upward := integral_eq ![y, z]
    simp only [map_neg, map_sub, map_one, eval_X, Matrix.cons_val_zero, Matrix.cons_val_one]
      at upward
    exact upward
  have summed : ∀ y z,
      first.totalTo (-1 - y - z) (fun x => eval ![x, y, z] Q) = eval ![y, z] R := by
    intro y z
    rw [← inner]
    exact totalTo_section exactFirst below (-1 - y - z) ![y, z]
  calc (collapsedCube first second third).integrate (fun ξ => eval ![ξ.x, ξ.y, ξ.z] Q)
      = (collapsedSquare second third).integrate fun ξ => eval ![ξ.x, ξ.y] R := by
        rw [integrate_collapsedCube]
        simp only [summed]
    _ = Shape.triangle.integral fun ξ => eval ![ξ.x, ξ.y] R :=
        collapsedSquare_exact exactSecond exactThird degree_le
    _ = Shape.tetrahedron.integral fun ξ => eval ![ξ.x, ξ.y, ξ.z] Q := by
        rw [Shape.integral_tetrahedron]
        · simp only [inner]
        · exact (continuous_eval Q).comp (by fun_prop)

/-- Products integrate monomials over the square. -/
theorem square_exact (exact : line.ExactTo degree) {i j : ℕ} (i_le : i ≤ degree)
    (j_le : j ≤ degree) :
    (square line).integrate (fun ξ => ξ.x ^ i * ξ.y ^ j) =
      Shape.quadrilateral.integral fun ξ => ξ.x ^ i * ξ.y ^ j := by
  calc (square line).integrate (fun ξ => ξ.x ^ i * ξ.y ^ j)
      = line.total (· ^ i) * line.total (· ^ j) := by
        simp only [integrate_square, LineRule.total_mul_right, LineRule.total_mul_left]
    _ = (∫ x in (-1)..1, x ^ i) * ∫ y in (-1)..1, y ^ j := by rw [exact i i_le, exact j j_le]
    _ = Shape.quadrilateral.integral fun ξ => ξ.x ^ i * ξ.y ^ j :=
        (Shape.integral_quadrilateral_mul (· ^ i) (· ^ j)).symm

/-- Products integrate monomials over the cube. -/
theorem cube_exact (exact : line.ExactTo degree) {i j k : ℕ} (i_le : i ≤ degree)
    (j_le : j ≤ degree) (k_le : k ≤ degree) :
    (cube line).integrate (fun ξ => ξ.x ^ i * (ξ.y ^ j * ξ.z ^ k)) =
      Shape.hexahedron.integral fun ξ => ξ.x ^ i * (ξ.y ^ j * ξ.z ^ k) := by
  calc (cube line).integrate (fun ξ => ξ.x ^ i * (ξ.y ^ j * ξ.z ^ k))
      = line.total (· ^ i) * (line.total (· ^ j) * line.total (· ^ k)) := by
        simp only [integrate_cube, LineRule.total_mul_right, LineRule.total_mul_left]
    _ = (∫ x in (-1)..1, x ^ i) * ((∫ y in (-1)..1, y ^ j) * ∫ z in (-1)..1, z ^ k) := by
        rw [exact i i_le, exact j j_le, exact k k_le]
    _ = Shape.hexahedron.integral fun ξ => ξ.x ^ i * (ξ.y ^ j * ξ.z ^ k) :=
        (Shape.integral_hexahedron_mul (· ^ i) (· ^ j) (· ^ k)).symm

end QuadratureRule

/-! ## All shapes -/

namespace Shape

/--
What a rule of a strength promises to integrate exactly: monomials with exponents up to the strength
over products, and polynomials of a total degree up to the strength over simplices.
-/
def IsIntegrand (strength : ℕ) : Shape → (Vec3 ℝ → ℝ) → Prop
  | triangle, f => ∃ Q : MvPolynomial (Fin 2) ℝ, Q.totalDegree ≤ strength ∧
      f = fun ξ => eval ![ξ.x, ξ.y] Q
  | quadrilateral, f => ∃ i ≤ strength, ∃ j ≤ strength, f = fun ξ => ξ.x ^ i * ξ.y ^ j
  | tetrahedron, f => ∃ Q : MvPolynomial (Fin 3) ℝ, Q.totalDegree ≤ strength ∧
      f = fun ξ => eval ![ξ.x, ξ.y, ξ.z] Q
  | hexahedron, f => ∃ i ≤ strength, ∃ j ≤ strength, ∃ k ≤ strength,
      f = fun ξ => ξ.x ^ i * (ξ.y ^ j * ξ.z ^ k)

/--
Rules are exact to their strength, as `Shape.rule` is defined with Gauss rules, if rules on the
interval with `n` points are exact to the degree `2 n - 1`.
-/
theorem ruleFrom_exact (gauss : ℕ → LineRule ℝ)
    (exact : ∀ n, 1 ≤ n → ∀ k ≤ 2 * n - 1, (gauss n).total (· ^ k) = ∫ x in (-1)..1, x ^ k)
    (shape : Shape) (strength : ℕ) {f : Vec3 ℝ → ℝ} (integrand : shape.IsIntegrand strength f) :
    (ruleFrom (fun degree => gauss (LineRule.pointsFor degree)) strength shape).integrate f =
      shape.integral f := by
  have exactTo : ∀ degree, (gauss (LineRule.pointsFor degree)).ExactTo degree := by
    intro degree k below
    apply exact
    · exact Nat.succ_pos _
    · rw [LineRule.pointsFor]
      omega
  cases shape with
  | triangle =>
      rcases integrand with ⟨Q, below, rfl⟩
      exact QuadratureRule.collapsedSquare_exact (exactTo _) (exactTo _) below
  | quadrilateral =>
      rcases integrand with ⟨i, i_le, j, j_le, rfl⟩
      exact QuadratureRule.square_exact (exactTo _) i_le j_le
  | tetrahedron =>
      rcases integrand with ⟨Q, below, rfl⟩
      exact QuadratureRule.collapsedCube_exact (exactTo _) (exactTo _) (exactTo _) below
  | hexahedron =>
      rcases integrand with ⟨i, i_le, j, j_le, k, k_le, rfl⟩
      exact QuadratureRule.cube_exact (exactTo _) i_le j_le k_le

/-- The rule of strength one for tetrahedra, from the Gauss rules with one and with two points. -/
theorem tetrahedron_rule_one_exact :
    (∀ n, 1 ≤ n → ∀ k ≤ 2 * n - 1,
      (LineRule.exactFamily n).total (· ^ k) = ∫ x in (-1)..1, x ^ k) ∧
    tetrahedron.IsIntegrand 1 (fun ξ => eval ![ξ.x, ξ.y, ξ.z] (X 0 : MvPolynomial (Fin 3) ℝ)) ∧
      (QuadratureRule.collapsedCube (LineRule.gauss 1) LineRule.twoPoints
        LineRule.twoPoints).integrate (fun ξ => eval ![ξ.x, ξ.y, ξ.z] (X 0)) =
          tetrahedron.integral fun ξ => eval ![ξ.x, ξ.y, ξ.z] (X 0) := by
  have integrand : tetrahedron.IsIntegrand 1
      (fun ξ => eval ![ξ.x, ξ.y, ξ.z] (X 0 : MvPolynomial (Fin 3) ℝ)) :=
    ⟨X 0, (totalDegree_X 0).le, rfl⟩
  refine ⟨LineRule.exactTo_exactFamily, integrand, ?_⟩
  exact ruleFrom_exact LineRule.exactFamily LineRule.exactTo_exactFamily tetrahedron 1 integrand

end Shape

end ImmersedBody
