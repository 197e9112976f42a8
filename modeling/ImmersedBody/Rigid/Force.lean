import ImmersedBody.Rigid.Mass

/-!
# Net forces

A force density on the nodes of a structure is integrated into the net force and the net torque
about a center.  Positions and forces may be discretized by different meshes with the same cells;
volumes are those of the mesh of the forces in its reference configuration.
-/

namespace ImmersedBody

variable {α : Type} [Scalar α] {positionShape forceShape : Shape}

/-- A force that acts at a point. -/
structure PointForce (α : Type) where
  position : Vec3 α
  force : Vec3 α

namespace PointForce

/-- The force and the torque about a center of point forces. -/
def net (center : Vec3 α) (forces : List (PointForce α)) : Vec3 α × Vec3 α :=
  forces.foldl (fun (force, torque) p =>
    (force + p.force, torque + (p.position - center).cross p.force)) (0, 0)

end PointForce

/--
The forces at the quadrature points of one cell, given its reference element and the values of
positions and forces at its nodes.
-/
def cellForces (reference : Element forceShape α) (positions : Element positionShape α)
    (forces : Element forceShape α) (rule : QuadratureRule α) : List (PointForce α) :=
  rule.points.map fun q =>
    let volume := Scalar.abs (reference.volumeFactor q.point) * q.weight
    ⟨positions.position q.point, (forces.position q.point).scale volume⟩

/-- The forces at the quadrature points of the cell with a number. -/
def forcesOnCell (positionMesh : Mesh positionShape α) (forceMesh : Mesh forceShape α)
    (positions forces : NodalField α) (rule : QuadratureRule α) (number : Nat) :
    Except (Stop α) (List (PointForce α)) :=
  match positionMesh.cells[number]?, forceMesh.cells[number]?, forceMesh.element? number with
  | some positionCell, some forceCell, some reference =>
    do
      let x ← positions.onCell positionShape.dim positionCell
      let f ← forces.onCell positionShape.dim forceCell
      return cellForces reference x f rule
  | _, _, _ => .error (.fault (.noSuchCell number))

/--
The generalized force about a center.  Each rank contributes some of the cells; there is one sum
over all ranks.
-/
def generalizedForce (positionMesh : Mesh positionShape α) (forceMesh : Mesh forceShape α)
    (cells : List Nat) (positions forces : NodalField α) (center : Vec3 α)
    (rule : QuadratureRule α) : Collective α (Vector α positionShape.dim.rigidSize) := do
  if positionMesh.cells.size ≠ forceMesh.cells.size then
    throw (.because (.cellCountMismatch positionMesh.cells.size forceMesh.cells.size))
  else
    let onCell := forcesOnCell positionMesh forceMesh positions forces rule
    let forces ← ExceptT.mk (pure (cells.mapM onCell))
    let (force, torque) := PointForce.net center forces.flatten
    Collective.sum "generalized_force" (positionShape.dim.pack force torque)

/--
The generalized force by a rule of any order.  The rule is needed on the first cell, before the
nodes of this cell are looked up.
-/
def generalizedForce? (positionMesh : Mesh positionShape α) (forceMesh : Mesh forceShape α)
    (cells : List Nat) (positions forces : NodalField α) (center : Vec3 α) (order : Nat) :
    Collective α (Vector α positionShape.dim.rigidSize) := do
  let reached := positionMesh.cells.size = forceMesh.cells.size
    ∧ cells.head?.all (· < positionMesh.cells.size)
  let rule ← if reached then ExceptT.mk (pure ((forceShape.ruleFor? cells order).mapError .fault))
    else pure .empty
  generalizedForce positionMesh forceMesh cells positions forces center rule

end ImmersedBody
