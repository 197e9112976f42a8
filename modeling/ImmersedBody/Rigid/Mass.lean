import ImmersedBody.Field.Nodal
import ImmersedBody.Mesh.Basic
import ImmersedBody.Quadrature.Rule
import ImmersedBody.Ranks.Task

/-!
# Mass properties

The volume, the center of mass and the inertia tensor of a structure with unit density are
integrals over its current configuration.  They are evaluated with the quadrature rules of the
elements, over the cells of each rank, and then summed over all ranks.
-/

namespace ImmersedBody

/-- The mass properties of a structure with unit density. -/
structure MassProperties (α : Type) where
  /-- The volume, or the area of a planar structure. -/
  volume : α
  /-- The center of mass. -/
  center : Vec3 α
  /-- The inertia tensor about the center of mass. -/
  inertia : Mat3 α
deriving DecidableEq

/-- A point of a structure and the volume that a quadrature rule gives to it. -/
structure Sample (α : Type) where
  position : Vec3 α
  /-- The volume around it. -/
  volume : α

section

variable {α : Type} [Scalar α] {shape : Shape}

/-- The values of a field at the nodes of a cell. -/
def NodalField.onCell (field : NodalField α) (dim : Dim) (cell : Cell shape) :
    Except (Stop α) (Element shape α) :=
  cell.mapM (field.vector dim)

/-- The samples of an element. -/
def Element.samples (element : Element shape α) (rule : QuadratureRule α) : List (Sample α) :=
  rule.points.map fun q =>
    ⟨element.position q.point, Scalar.abs (element.volumeFactor q.point) * q.weight⟩

/-- The samples of the cell with a number, with its nodes at the given positions. -/
def Mesh.cellSamples (mesh : Mesh shape α) (positions : NodalField α) (rule : QuadratureRule α)
    (number : Nat) : Except (Stop α) (List (Sample α)) :=
  match mesh.cells[number]? with
  | none => .error (.fault (.noSuchCell number))
  | some cell => do
    let element ← positions.onCell shape.dim cell
    return element.samples rule

/-- The samples of some cells, cell by cell. -/
def Mesh.samples (mesh : Mesh shape α) (cells : List Nat) (positions : NodalField α)
    (rule : QuadratureRule α) : Except (Stop α) (List (Sample α)) := do
  return (← cells.mapM (mesh.cellSamples positions rule)).flatten

namespace Sample

/-- The sums of position times volume, and of volume. -/
def moments (samples : List (Sample α)) : Vec3 α × α :=
  samples.foldl (fun (first, volume) s => (first + s.position.scale s.volume, volume + s.volume))
    (0, 0)

/-- The inertia about a center of a sample, per volume. -/
def inertiaDensity (center : Vec3 α) (s : Sample α) : Mat3 α :=
  let r := s.position - center
  (1 : Mat3 α).scale r.normSq - Mat3.outer r r

/-- The inertia of samples about a center. -/
def inertia (center : Vec3 α) (samples : List (Sample α)) : Mat3 α :=
  samples.foldl (fun sum s => sum + (s.inertiaDensity center).scale s.volume) 0

end Sample

namespace MassProperties

/-- No mass at the origin. -/
def none : MassProperties α := ⟨0, 0, 0⟩

/--
The mass properties of a structure whose nodes are at the given positions.  Each rank contributes
some of the cells.
-/
def compute (mesh : Mesh shape α) (cells : List Nat) (positions : NodalField α)
    (rule : QuadratureRule α) : Collective α (MassProperties α) := do
  let samples ← ExceptT.mk (pure (mesh.samples cells positions rule))
  let (first, size) := Sample.moments samples
  let moments ← Collective.sum "center_of_mass" #v[first.x, first.y, first.z, size]
  let volume := moments[3]
  if !Scalar.lt 0 volume then
    throw (.because (.nonPositiveVolume volume))
  else
    let center := Vec3.divide ⟨moments[0], moments[1], moments[2]⟩ volume
    let inertia ← Collective.sum "moment_of_inertia" (Sample.inertia center samples).toVector
    return ⟨volume, center, .ofVector inertia⟩

/--
The mass properties by a rule of any order.  The rule is needed on the first cell, after the nodes
of this cell have been looked up.
-/
def compute? (mesh : Mesh shape α) (cells : List Nat) (positions : NodalField α) (order : Nat) :
    Collective α (MassProperties α) := do
  let _ ← ExceptT.mk (pure (mesh.samples (cells.take 1) positions .empty))
  let rule ← ExceptT.mk (pure ((shape.ruleFor? cells order).mapError .fault))
  compute mesh cells positions rule

end MassProperties

end

end ImmersedBody
