import ImmersedBody.Space.Dim

/-!
# Shapes of elements

A mesh consists of cells of one shape.  Every shape has a reference domain, whose corners are the
nodes of the element.
-/

namespace ImmersedBody

/-- The shape of the cells of a mesh. -/
inductive Shape where
  /-- Linear triangles in the plane. -/
  | triangle
  /-- Bilinear quadrilaterals in the plane, with corners counter-clockwise. -/
  | quadrilateral
  /-- Linear tetrahedra. -/
  | tetrahedron
  /-- Trilinear hexahedra: the bottom face counter-clockwise, then the top face. -/
  | hexahedron
deriving DecidableEq, Repr

namespace Shape

/-- The dimension in which cells of a shape lie. -/
@[reducible]
def dim : Shape → Dim
  | triangle | quadrilateral => .two
  | tetrahedron | hexahedron => .three

/-- The number of nodes of an element. -/
@[reducible]
def nodeCount : Shape → Nat
  | triangle => 3
  | quadrilateral | tetrahedron => 4
  | hexahedron => 8

theorem nodeCount_pos (shape : Shape) : 0 < shape.nodeCount := by
  cases shape <;> decide

variable {α : Type} [Scalar α]

/-- The corners of the reference square, in the plane `z = 0`. -/
def squareCorners : Vector (Vec3 α) 4 :=
  #v[⟨-1, -1, 0⟩, ⟨1, -1, 0⟩, ⟨1, 1, 0⟩, ⟨-1, 1, 0⟩]

/-- The corners of the reference cube. -/
def cubeCorners : Vector (Vec3 α) 8 :=
  #v[⟨-1, -1, -1⟩, ⟨1, -1, -1⟩, ⟨1, 1, -1⟩, ⟨-1, 1, -1⟩,
    ⟨-1, -1, 1⟩, ⟨1, -1, 1⟩, ⟨1, 1, 1⟩, ⟨-1, 1, 1⟩]

/-- The nodes of the reference element. -/
def referenceNodes : (shape : Shape) → Vector (Vec3 α) shape.nodeCount
  | triangle => #v[⟨-1, -1, 0⟩, ⟨1, -1, 0⟩, ⟨-1, 1, 0⟩]
  | quadrilateral => squareCorners
  | tetrahedron => #v[⟨-1, -1, -1⟩, ⟨1, -1, -1⟩, ⟨-1, 1, -1⟩, ⟨-1, -1, 1⟩]
  | hexahedron => cubeCorners

/-- The linear function on `[-1, 1]` that is one at an end and zero at the opposite end. -/
def hat (corner ξ : α) : α :=
  Scalar.half * (1 + corner * ξ)

/-- The derivative of `hat`. -/
def hatSlope (corner : α) : α :=
  Scalar.half * corner

/-- The values of the basis functions at a reference point. -/
def basis : (shape : Shape) → Vec3 α → Vector α shape.nodeCount
  | triangle, ξ =>
    #v[-Scalar.half * (ξ.x + ξ.y), Scalar.half * (1 + ξ.x), Scalar.half * (1 + ξ.y)]
  | quadrilateral, ξ => squareCorners.map fun c => hat c.x ξ.x * hat c.y ξ.y
  | tetrahedron, ξ =>
    #v[-Scalar.half * (1 + ξ.x + ξ.y + ξ.z), Scalar.half * (1 + ξ.x), Scalar.half * (1 + ξ.y),
      Scalar.half * (1 + ξ.z)]
  | hexahedron, ξ => cubeCorners.map fun c => hat c.x ξ.x * hat c.y ξ.y * hat c.z ξ.z

/-- The reference gradients of the basis functions at a reference point. -/
def gradients : (shape : Shape) → Vec3 α → Vector (Vec3 α) shape.nodeCount
  | triangle, _ =>
    #v[⟨-Scalar.half, -Scalar.half, 0⟩, ⟨Scalar.half, 0, 0⟩, ⟨0, Scalar.half, 0⟩]
  | quadrilateral, ξ => squareCorners.map fun c =>
    ⟨hatSlope c.x * hat c.y ξ.y, hat c.x ξ.x * hatSlope c.y, 0⟩
  | tetrahedron, _ =>
    #v[⟨-Scalar.half, -Scalar.half, -Scalar.half⟩, ⟨Scalar.half, 0, 0⟩, ⟨0, Scalar.half, 0⟩,
      ⟨0, 0, Scalar.half⟩]
  | hexahedron, ξ => cubeCorners.map fun c =>
    ⟨hatSlope c.x * hat c.y ξ.y * hat c.z ξ.z, hat c.x ξ.x * hatSlope c.y * hat c.z ξ.z,
      hat c.x ξ.x * hat c.y ξ.y * hatSlope c.z⟩

end Shape

end ImmersedBody
