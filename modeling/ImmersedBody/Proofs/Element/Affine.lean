import ImmersedBody.Proofs.Space.RigidMap
import ImmersedBody.Element.Map

/-!
# Elements under affine maps

The basis functions of an element add up to one at every point, and their
gradients to zero.  An affine map of the nodes therefore maps every interpolated
value in the same way, and multiplies the derivative of the element by its linear
part.  A rigid map does not change by how much the element scales volumes.
-/

namespace ImmersedBody

variable {n : Nat}

/-! ## Sums over the nodes -/

/-- A sum over the nodes that reads only the first of two values at them. -/
theorem foldl_zip_fst {β γ σ : Type} (step : σ → β → σ) (start : σ) (first : Vector β n)
    (second : Vector γ n) :
    (first.toList.zip second.toList).foldl (fun sum item => step sum item.1) start =
      first.foldl step start := by
  have fits : first.toList.length ≤ second.toList.length := by simp
  rw [← List.foldl_map, List.map_fst_zip fits, Vector.foldl_toList]

/-- What is interpolated from affine images is the affine image of what is interpolated. -/
theorem interpolate_affine (a : Mat3 ℝ) (b : Vec3 ℝ) (weights : Vector ℝ n)
    (nodes : Vector (Vec3 ℝ) n) :
    interpolate weights (nodes.map fun x => a.apply x + b) =
      a.apply (interpolate weights nodes) + b.scale (weights.foldl (· + ·) 0) := by
  have start : (0 : Vec3 ℝ) = a.apply 0 + b.scale 0 := by
    rw [Mat3.apply_zero]
    ext <;> simp
  have step (sum : Vec3 ℝ) (total : ℝ) (item : ℝ × Vec3 ℝ) :
      a.apply (sum + item.2.scale item.1) + b.scale (total + item.1) =
        a.apply sum + b.scale total + (a.apply item.2 + b).scale item.1 := by
    rw [Mat3.apply_add, Mat3.apply_scale]
    ext <;> simp <;> ring
  rw [interpolate, interpolate, ← Vector.foldl_toList, ← Vector.foldl_toList, Vector.toList_zip,
    Vector.toList_zip, Vector.toList_map, List.zip_map_right,
    List.foldl_map, ← foldl_zip_fst (· + ·) 0 weights nodes]
  exact (congrArg (fun zero => List.foldl _ zero _) start).trans
    (List.foldl_hom₂ _ (fun sum total => a.apply sum + b.scale total) _ _ _ 0 0 step)

/-- An affine map of the nodes multiplies the Jacobian by its linear part. -/
theorem jacobian_affine (a : Mat3 ℝ) (b : Vec3 ℝ) (gradients nodes : Vector (Vec3 ℝ) n) :
    jacobian gradients (nodes.map fun x => a.apply x + b) =
      a.mul (jacobian gradients nodes) + Mat3.outer b (gradients.foldl (· + ·) 0) := by
  have start : (0 : Mat3 ℝ) = a.mul 0 + Mat3.outer b 0 := by
    ext <;> simp [Mat3.transpose, Mat3.outer, Vec3.dot]
  have step (sum : Mat3 ℝ) (total : Vec3 ℝ) (item : Vec3 ℝ × Vec3 ℝ) :
      a.mul (sum + Mat3.outer item.2 item.1) + Mat3.outer b (total + item.1) =
        a.mul sum + Mat3.outer b total + Mat3.outer (a.apply item.2 + b) item.1 := by
    ext <;> simp [Mat3.transpose, Mat3.outer, Vec3.dot] <;> ring
  rw [jacobian, jacobian, ← Vector.foldl_toList, ← Vector.foldl_toList, Vector.toList_zip,
    Vector.toList_zip, Vector.toList_map, List.zip_map_right,
    List.foldl_map, ← foldl_zip_fst (· + ·) 0 gradients nodes]
  exact (congrArg (fun zero => List.foldl _ zero _) start).trans
    (List.foldl_hom₂ _ (fun sum total => a.mul sum + Mat3.outer b total) _ _ _ 0 0 step)

/-! ## The basis functions -/

namespace Shape

variable (shape : Shape) (ξ : Vec3 ℝ)

/-- The basis functions add up to one. -/
theorem total_basis : (shape.basis ξ).foldl (· + ·) 0 = 1 := by
  cases shape with
  | triangle | tetrahedron =>
      simp [basis]
      ring
  | quadrilateral =>
      simp [basis, squareCorners, hat]
      ring
  | hexahedron =>
      simp [basis, cubeCorners, hat]
      ring

/-- The gradients of the basis functions add up to zero. -/
theorem total_gradients : (shape.gradients ξ).foldl (· + ·) 0 = 0 := by
  cases shape with
  | triangle | tetrahedron =>
      ext <;> simp [gradients]
  | quadrilateral =>
      ext <;> simp [gradients, squareCorners, hat, hatSlope]
  | hexahedron =>
      ext <;> simp [gradients, cubeCorners, hat, hatSlope]
      ring

end Shape

/-! ## Elements -/

namespace Element

variable {shape : Shape} (element : Element shape ℝ) (ξ : Vec3 ℝ)

/-- What an element interpolates from affine images of its nodes. -/
theorem position_affine (a : Mat3 ℝ) (b : Vec3 ℝ) :
    position (element.map fun x => a.apply x + b : Element shape ℝ) ξ =
      a.apply (element.position ξ) + b := by
  rw [position, interpolate_affine, Shape.total_basis]
  ext <;> simp [position]

/-- An affine map of the nodes multiplies the derivative by its linear part. -/
theorem derivative_affine (a : Mat3 ℝ) (b : Vec3 ℝ) :
    derivative (element.map fun x => a.apply x + b : Element shape ℝ) ξ =
      a.mul (element.derivative ξ) := by
  rw [derivative, jacobian_affine, Shape.total_gradients]
  ext <;> simp [derivative, Mat3.outer]

/-- A rigid map of the nodes moves every point of the element in the same way. -/
theorem position_map (map : RigidMap shape.dim) :
    position (element.map map.apply : Element shape ℝ) ξ = map.apply (element.position ξ) :=
  position_affine element ξ map.linear map.offset

/-- A rigid map of the nodes does not change by how much the element scales volumes. -/
theorem abs_volumeFactor_map (map : RigidMap shape.dim) :
    |volumeFactor (element.map map.apply : Element shape ℝ) ξ| = |element.volumeFactor ξ| := by
  have derivative_eq : derivative (element.map map.apply : Element shape ℝ) ξ =
      map.linear.mul (element.derivative ξ) :=
    derivative_affine element ξ map.linear map.offset
  rw [volumeFactor, derivative_eq, map.abs_det_mul]
  rfl

end Element

end ImmersedBody
