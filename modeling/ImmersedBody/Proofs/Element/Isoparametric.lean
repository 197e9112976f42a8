import ImmersedBody.Proofs.Element.Affine
import Mathlib.Tactic.IntervalCases

/-!
# Isoparametric maps

The map of an element and its derivative are built from basis functions and from
gradients that are written down apart from each other.  They fit together exactly:
along every axis the map is linear, with the slope that the derivative gives at any
point of the line.  An element whose nodes are an affine image of the reference nodes
is mapped by this affine map, and its derivative is the linear part everywhere.

The main theorem is `Shape.isoparametric`.
-/

namespace ImmersedBody

variable {n : Nat}

/-! ## Axes and matrices of a dimension -/

namespace Dim

/-- The unit vector along an axis. -/
def axis {α : Type} [Zero α] [One α] (dim : Dim) (d : Fin dim.size) : Vec3 α :=
  dim.embed (Vector.ofFn fun i => if i = d then 1 else 0)

/-- The matrix without the rows and columns that a dimension does not have. -/
def clip {α : Type} [Zero α] : Dim → Mat3 α → Mat3 α
  | two, a => ⟨⟨a.row0.x, a.row0.y, 0⟩, ⟨a.row1.x, a.row1.y, 0⟩, 0⟩
  | three, a => a

variable (dim : Dim) (a : Mat3 ℝ)

theorem clip_apply_flatten (v : Vec3 ℝ) :
    (dim.clip a).apply (dim.flatten v) = (dim.clip a).apply v := by
  cases dim with
  | two =>
      ext <;> simp [clip, flatten_two, Vec3.dot]
  | three =>
      rfl

/-- A matrix is known from the images of the axes of space. -/
theorem eq_of_apply_axis {a b : Mat3 ℝ}
    (same : ∀ d : Fin 3, a.apply (three.axis d) = b.apply (three.axis d)) : a = b := by
  have first : a.apply ⟨1, 0, 0⟩ = b.apply ⟨1, 0, 0⟩ := same 0
  have second : a.apply ⟨0, 1, 0⟩ = b.apply ⟨0, 1, 0⟩ := same 1
  have third : a.apply ⟨0, 0, 1⟩ = b.apply ⟨0, 0, 1⟩ := same 2
  simp only [Vec3.ext_iff, Mat3.apply_x, Mat3.apply_y, Mat3.apply_z, Vec3.dot, mul_one, mul_zero,
    add_zero, zero_add] at first second third
  ext <;> simp [first, second, third]

theorem clip_mul_clip_one : (dim.clip a).mul (dim.clip 1) = dim.clip a := by
  cases dim with
  | two | three =>
      ext <;> simp [clip, Mat3.transpose, Vec3.dot]

end Dim

/-! ## Steps along a direction -/

/-- A sum over two vectors runs through their indices. -/
theorem foldl_zip_eq_finRange {β γ σ : Type} (step : σ → β × γ → σ) (start : σ)
    (first : Vector β n) (second : Vector γ n) :
    (first.zip second).foldl step start =
      (List.finRange n).foldl (fun sum i => step sum (first[i], second[i])) start := by
  have pairs : (first.zip second).toList =
      (List.finRange n).map fun i => (first[i], second[i]) := by
    apply List.ext_getElem
    · simp
    · intro i _ _
      simp
  rw [← Vector.foldl_toList, pairs, List.foldl_map]

/-- Weights that change by the slopes of the gradients change the sum by that of the Jacobian. -/
theorem interpolate_step (weights : Vector ℝ n) (gradients nodes : Vector (Vec3 ℝ) n)
    (direction : Vec3 ℝ) (h : ℝ) :
    interpolate (weights.zipWith (fun φ gradient => φ + gradient.dot direction * h) gradients)
        nodes =
      interpolate weights nodes + ((jacobian gradients nodes).apply direction).scale h := by
  have start : (0 : Vec3 ℝ) = 0 + ((0 : Mat3 ℝ).apply direction).scale h := by
    ext <;> simp [Vec3.dot]
  have step (sum : Vec3 ℝ) (slope : Mat3 ℝ) (i : Fin n) :
      sum + nodes[i].scale weights[i] +
          ((slope + Mat3.outer nodes[i] gradients[i]).apply direction).scale h =
        sum + (slope.apply direction).scale h +
          nodes[i].scale (weights[i] + gradients[i].dot direction * h) := by
    ext <;> simp [Mat3.outer, Vec3.dot] <;> ring
  simp only [interpolate, jacobian, foldl_zip_eq_finRange, Fin.getElem_fin, Vector.getElem_zipWith]
  exact (congrArg (fun zero => List.foldl _ zero _) start).trans
    (List.foldl_hom₂ _ (fun (sum : Vec3 ℝ) (slope : Mat3 ℝ) =>
      sum + (slope.apply direction).scale h) _ _ _ 0 0 step)

namespace Shape

theorem hat_add (corner ξ h : ℝ) : hat corner (ξ + h) = hat corner ξ + hatSlope corner * h := by
  simp only [hat, hatSlope]
  ring

/-- Along an axis the basis functions are linear, with the slopes of their gradients. -/
theorem basis_step (shape : Shape) (ξ : Vec3 ℝ) (d : Fin shape.dim.size) (h : ℝ) :
    shape.basis (ξ + (shape.dim.axis d).scale h) =
      (shape.basis ξ).zipWith (fun φ gradient => φ + gradient.dot (shape.dim.axis d) * h)
        (shape.gradients ξ) := by
  apply Vector.ext
  intro i inside
  rw [Vector.getElem_zipWith]
  cases shape with
  | triangle =>
      have inside : i < 3 := inside
      interval_cases i <;> fin_cases d <;>
        simp [basis, gradients, Dim.axis, Dim.embed, Vec3.dot] <;> ring
  | tetrahedron =>
      have inside : i < 4 := inside
      interval_cases i <;> fin_cases d <;>
        simp [basis, gradients, Dim.axis, Dim.embed, Vec3.dot] <;> ring
  | quadrilateral =>
      -- one factor of the product changes, and it is linear
      simp only [basis, gradients, Vector.getElem_map]
      fin_cases d <;> simp [Dim.axis, Dim.embed, Vec3.dot, hat_add] <;> ring
  | hexahedron =>
      simp only [basis, gradients, Vector.getElem_map]
      fin_cases d <;> simp [Dim.axis, Dim.embed, Vec3.dot, hat_add] <;> ring

/-! ## Reference elements -/

variable (shape : Shape) (ξ : Vec3 ℝ)

/-- The reference element is mapped to itself. -/
theorem interpolate_referenceNodes :
    interpolate (shape.basis ξ) shape.referenceNodes = shape.dim.flatten ξ := by
  cases shape with
  | triangle | tetrahedron =>
      ext <;> simp [interpolate, basis, referenceNodes, Dim.flatten_two] <;> ring
  | quadrilateral =>
      ext <;> simp [interpolate, basis, referenceNodes, squareCorners, hat, Dim.flatten_two] <;> ring
  | hexahedron =>
      ext <;> simp [interpolate, basis, referenceNodes, cubeCorners, hat] <;> ring

/-- Along an axis the reference element goes as far as its reference coordinates. -/
theorem apply_axis_referenceNodes (d : Fin shape.dim.size) :
    (jacobian (shape.gradients ξ) shape.referenceNodes).apply (shape.dim.axis d) =
      shape.dim.flatten (shape.dim.axis d) := by
  have step := interpolate_step (shape.basis ξ) (shape.gradients ξ) shape.referenceNodes
    (shape.dim.axis d) 1
  rw [← shape.basis_step ξ d 1, interpolate_referenceNodes, interpolate_referenceNodes,
    Dim.flatten_add, Dim.flatten_scale] at step
  ext
  · simpa using (congrArg Vec3.x step).symm
  · simpa using (congrArg Vec3.y step).symm
  · simpa using (congrArg Vec3.z step).symm

theorem jacobian_referenceNodes :
    jacobian (shape.gradients ξ) shape.referenceNodes = shape.dim.clip 1 := by
  cases shape with
  | triangle =>
      ext <;> simp [jacobian, gradients, referenceNodes, Dim.clip, Mat3.outer] <;> ring
  | quadrilateral =>
      ext <;> simp [jacobian, gradients, referenceNodes, squareCorners, hat, hatSlope, Dim.clip,
        Mat3.outer] <;> ring
  | tetrahedron =>
      exact Dim.eq_of_apply_axis fun d =>
        (tetrahedron.apply_axis_referenceNodes ξ d).trans (Mat3.one_apply _).symm
  | hexahedron =>
      exact Dim.eq_of_apply_axis fun d =>
        (hexahedron.apply_axis_referenceNodes ξ d).trans (Mat3.one_apply _).symm

end Shape

namespace Element

variable {shape : Shape} (element : Element shape ℝ) (ξ : Vec3 ℝ)

/-- Along an axis the map of an element is linear, with the slope of its derivative. -/
theorem position_step (d : Fin shape.dim.size) (h : ℝ) :
    element.position (ξ + (shape.dim.axis d).scale h) =
      element.position ξ + ((element.derivative ξ).apply (shape.dim.axis d)).scale h := by
  rw [position, Shape.basis_step, interpolate_step]
  rfl

end Element

/-- The element whose nodes are the images of the reference nodes under an affine map. -/
def Shape.image {α : Type} [Scalar α] (shape : Shape) (a : Mat3 α) (b : Vec3 α) :
    Element shape α :=
  shape.referenceNodes.map fun v => a.apply v + b

theorem Shape.position_image (shape : Shape) (a : Mat3 ℝ) (b ξ : Vec3 ℝ) :
    (shape.image a b).position ξ = a.apply (shape.dim.flatten ξ) + b := by
  rw [image, Element.position_affine, Element.position, interpolate_referenceNodes]

theorem Shape.derivative_image (shape : Shape) (a : Mat3 ℝ) (b ξ : Vec3 ℝ) :
    (shape.image a b).derivative ξ = a.mul (shape.dim.clip 1) := by
  rw [image, Element.derivative_affine, Element.derivative, jacobian_referenceNodes]

/--
The map of an element and its derivative, at every reference point.  A step along an
axis changes the position by the column of the derivative times the length of the step,
however long it is.  The basis functions add up to one and their gradients to zero.  If
the nodes are the images of the reference nodes under an affine map of the plane or of
space, this is the map of the element, and its linear part is the derivative.
-/
theorem Shape.isoparametric (shape : Shape) (ξ : Vec3 ℝ) :
    (∀ (element : Element shape ℝ) (d : Fin shape.dim.size) (h : ℝ),
      element.position (ξ + (shape.dim.axis d).scale h) =
        element.position ξ + ((element.derivative ξ).apply (shape.dim.axis d)).scale h) ∧
    (shape.basis ξ).foldl (· + ·) 0 = 1 ∧
    (shape.gradients ξ).foldl (· + ·) 0 = 0 ∧
    ∀ (a : Mat3 ℝ) (b : Vec3 ℝ),
      (shape.image (shape.dim.clip a) (shape.dim.flatten b)).position ξ =
        (shape.dim.clip a).apply ξ + shape.dim.flatten b ∧
      (shape.image (shape.dim.clip a) (shape.dim.flatten b)).derivative ξ =
        shape.dim.clip a := by
  refine ⟨fun element => element.position_step ξ, shape.total_basis ξ, shape.total_gradients ξ, ?_⟩
  intro a b
  constructor
  · rw [position_image, Dim.clip_apply_flatten]
  · rw [derivative_image, Dim.clip_mul_clip_one]

end ImmersedBody
