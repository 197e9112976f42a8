import ImmersedBody.Element.Shape
import ImmersedBody.Quadrature.Line

/-!
# Quadrature rules on the reference elements

The rules for quadrilaterals and hexahedra are products of rules on an interval.  Triangles and
tetrahedra use collapsed rules: a product rule on the square or the cube is mapped onto the simplex,
and the factor by which the map scales the volume goes into the weights.  This factor is a
polynomial in the collapsed directions, which is why those need a higher degree.

The rules are built from any family of rules on an interval; `Shape.rule` uses the Gauss rules.
-/

namespace ImmersedBody

/-- A weight and a point of a reference domain. -/
structure QuadraturePoint (α : Type) where
  weight : α
  point : Vec3 α

/-- A quadrature rule on a reference domain. -/
structure QuadratureRule (α : Type) where
  /-- The points with their weights, in the order in which they are summed. -/
  points : List (QuadraturePoint α)

namespace QuadratureRule

variable {α : Type}

/-- The rule with the given weights and points, which have to be equally many. -/
def ofLists (weights : List α) (points : List (Vec3 α)) : Except Fault (QuadratureRule α) :=
  if weights.length = points.length then .ok ⟨List.zipWith .mk weights points⟩
  else .error .wrongLength

/-- The rule without points. -/
def empty : QuadratureRule α := ⟨[]⟩

/-- The number of points. -/
def length (rule : QuadratureRule α) : Nat :=
  rule.points.length

variable [Scalar α]

/--
The sum of weights times values, from the first point to the last.  It starts from negative zero,
which leaves every double precision number as it is when it is added.
-/
def integrate (rule : QuadratureRule α) (f : Vec3 α → α) : α :=
  rule.points.foldl (fun sum q => sum + q.weight * f q.point) (-0)

/-- The product of a rule with itself on the reference square; the first direction runs fastest. -/
def square (line : LineRule α) : QuadratureRule α :=
  ⟨line.flatMap fun (wy, y) => line.map fun (wx, x) => ⟨wx * wy, ⟨x, y, 0⟩⟩⟩

/-- The product of a rule with itself on the reference cube; the first direction runs fastest. -/
def cube (line : LineRule α) : QuadratureRule α :=
  ⟨line.flatMap fun (wz, z) => line.flatMap fun (wy, y) => line.map fun (wx, x) =>
    ⟨wx * wy * wz, ⟨x, y, z⟩⟩⟩

/-- The image of a product rule on the reference triangle. -/
def collapsedSquare (first second : LineRule α) : QuadratureRule α :=
  ⟨second.flatMap fun (wv, v) => first.map fun (wu, u) =>
    let x := Scalar.half * (1 + u) * (1 - v) - 1
    let factor := Scalar.half * (1 - v)
    ⟨wu * wv * factor, ⟨x, v, 0⟩⟩⟩

/-- The image of a product rule on the reference tetrahedron. -/
def collapsedCube (first second third : LineRule α) : QuadratureRule α :=
  ⟨third.flatMap fun (ww, w) => second.flatMap fun (wv, v) => first.map fun (wu, u) =>
    let x := Scalar.quarter * (1 + u) * (1 - v) * (1 - w) - 1
    let y := Scalar.half * (1 + v) * (1 - w) - 1
    let factor := Scalar.eighth * (1 - v) * (1 - w) * (1 - w)
    ⟨wu * wv * ww * factor, ⟨x, y, w⟩⟩⟩

end QuadratureRule

namespace Shape

variable {α : Type} [Scalar α]

/--
The rule on the reference domain of a shape that is built from rules on an interval, given by the
degree that they integrate exactly.
-/
def ruleFrom (line : Nat → LineRule α) (degree : Nat) : Shape → QuadratureRule α
  | triangle => .collapsedSquare (line degree) (line (degree + 1))
  | quadrilateral => .square (line degree)
  | tetrahedron => .collapsedCube (line degree) (line (degree + 1)) (line (degree + 2))
  | hexahedron => .cube (line degree)

/--
The rule on the reference domain of a shape.  It is exact for polynomials of the given degree: in
each variable for quadrilaterals and hexahedra, in total for triangles and tetrahedra.
-/
def rule (shape : Shape) (degree : Nat) : QuadratureRule α :=
  ruleFrom (fun d => LineRule.gauss (LineRule.pointsFor d)) degree shape

/-- The rule of a degree, if it fits into memory. -/
def rule? (shape : Shape) (degree : Nat) : Except Fault (QuadratureRule α) := do
  Fault.checkMemory (LineRule.pointsFor degree)
  return shape.rule degree

/-- The rule of a degree for some cells.  Without a cell no rule is needed. -/
def ruleFor? (shape : Shape) (cells : List Nat) (degree : Nat) : Except Fault (QuadratureRule α) :=
  if cells.isEmpty then .ok .empty else shape.rule? degree

end Shape

end ImmersedBody
