import ImmersedBody.Mesh.Partition
import ImmersedBody.Rigid.Mass
import ImmersedBody.Rigid.Motion
import ImmersedBody.TimeStep.Window

/-!
# Rigid structures

A structure is described by its mesh, by the source of its rigid velocity and by the way in which
this velocity becomes a nodal one.  Once it is registered it has nodal fields on every rank, mass
properties, and rigid velocities at the three times of a step.

Some fields exist only during a step.  They start out from the fields of the structure and become
its fields when the step is committed.
-/

namespace ImmersedBody

/-- The source of the rigid velocity of a structure. -/
inductive BodyMotion (α : Type) where
  /-- The velocity is determined outside, by a solver for rigid bodies. -/
  | free
  /-- The velocity is a function of time. -/
  | prescribed (velocity : α → RigidVelocity α)

namespace BodyMotion

variable {α : Type}

/-- Whether the velocity is a function of time. -/
def isPrescribed : BodyMotion α → Bool
  | free => false
  | prescribed _ => true

/-- The motion whose velocity changes at a constant rate from what it is at the time zero. -/
def accelerated [Add α] [Mul α] (start rate : RigidVelocity α) : BodyMotion α :=
  prescribed fun time =>
    ⟨start.translational + rate.translational.scale time,
      start.rotational + rate.rotational.scale time⟩

/-- A motion as it is described. -/
def description : BodyMotion α → String
  | free => "Free"
  | prescribed _ => "Prescribed(..)"

end BodyMotion

/-- What a structure is made of. -/
structure StructureDescription (shape : Shape) (α : Type) where
  /-- The mesh in its reference configuration. -/
  mesh : Mesh shape α
  motion : BodyMotion α
  /-- How the rigid velocity becomes a nodal velocity. -/
  nodalVelocity : NodalVelocity α
  initialVelocity : RigidVelocity α

/-- The fields of a structure that exist only during a step. -/
structure StepFields (α : Type) where
  halfPositions : NodalField α
  newPositions : NodalField α
  halfForce : NodalField α
  /-- The Lagrangian velocity at the half time. -/
  halfVelocity : NodalField α
  newVelocity : NodalField α
  /-- The constrained velocity at the half time. -/
  constrainedVelocity : NodalField α

/-- A registered structure, as one rank holds it. -/
structure RigidStructure (shape : Shape) (α : Type) where
  /-- The mesh in its reference configuration. -/
  mesh : Mesh shape α
  /-- The part of the mesh that belongs to the rank. -/
  partition : Partition
  layout : FieldLayout
  motion : BodyMotion α
  /-- How the rigid velocity becomes a nodal velocity. -/
  nodalVelocity : NodalVelocity α
  /-- The positions at the current time. -/
  positions : NodalField α
  /-- The constraint force at the current time. -/
  constraintForce : NodalField α
  /-- The constrained velocity of the last step. -/
  constrainedVelocity : NodalField α
  /-- The velocity of the flow at the nodes at the current time. -/
  lagrangianVelocity : NodalField α
  currentMass : MassProperties α
  halfMass : MassProperties α
  velocity : TimeLevels (RigidVelocity α)
  /-- The fields that exist only during a step. -/
  step : Option (StepFields α)

namespace RigidStructure

variable {α : Type} [Scalar α] {shape : Shape}

/-- Sets up a structure on a rank, in the reference configuration of its mesh. -/
def setUp (description : StructureDescription shape α) (seat : Seat) :
    Except (Stop α) (RigidStructure shape α) := do
  let partition := Partition.ofMesh description.mesh seat
  let layout ← (partition.layout shape.dim.size).mapError .fault
  let positions ← (NodalField.ofGlobal layout description.mesh.coordinates).mapError
    fun e => .because (.field e)
  return {
    mesh := description.mesh
    partition, layout
    motion := description.motion
    nodalVelocity := description.nodalVelocity
    positions
    constraintForce := .zeros layout
    constrainedVelocity := .zeros layout
    lagrangianVelocity := .zeros layout
    currentMass := .none
    halfMass := .none
    velocity := .uniform description.initialVelocity
    step := none }

/-- Computes the mass properties from positions. -/
def massAt (body : RigidStructure shape α) (positions : NodalField α) (order : Nat) :
    Collective α (MassProperties α) :=
  MassProperties.compute body.mesh body.partition.cells positions (shape.rule order)

/-- The structure with mass properties that hold at the current and at the half time. -/
def withMass (body : RigidStructure shape α) (mass : MassProperties α) : RigidStructure shape α :=
  { body with currentMass := mass, halfMass := mass }

/-- The structure with one rigid velocity at all times. -/
def withVelocity (body : RigidStructure shape α) (velocity : RigidVelocity α) :
    RigidStructure shape α :=
  { body with velocity := .uniform velocity }

/--
The structure at the opening of a step.  A prescribed velocity is evaluated at the three times; a
free structure keeps its current velocity until another one is set.
-/
def opened (body : RigidStructure shape α) (window : StepWindow α) : RigidStructure shape α :=
  { body with
    step := some {
      halfPositions := body.positions
      newPositions := body.positions
      halfForce := body.constraintForce
      halfVelocity := body.lagrangianVelocity
      newVelocity := body.lagrangianVelocity
      constrainedVelocity := body.constrainedVelocity }
    velocity := match body.motion with
      | .prescribed velocity => ⟨velocity window.current, velocity window.half, velocity window.new⟩
      | .free => .uniform body.velocity.current }

/-- The structure with the fields of a step as its own. -/
def committed (body : RigidStructure shape α) (step : StepFields α) : RigidStructure shape α :=
  { body with
    positions := step.newPositions
    lagrangianVelocity := step.newVelocity
    constrainedVelocity := step.constrainedVelocity
    step := none }

/-- The positions at a level of the step. -/
def positionsAt (body : RigidStructure shape α) (step : StepFields α) :
    TimeLevel → NodalField α
  | .current => body.positions
  | .half => step.halfPositions
  | .new => step.newPositions

/-- The velocity of the flow at a level of the step. -/
def flowVelocityAt (body : RigidStructure shape α) (step : StepFields α) :
    TimeLevel → NodalField α
  | .current => body.lagrangianVelocity
  | .half => step.halfVelocity
  | .new => step.newVelocity

/-- The structure with another velocity of the flow at a level of the step. -/
def withFlowVelocity (body : RigidStructure shape α) (step : StepFields α) (level : TimeLevel)
    (velocity : NodalField α) : RigidStructure shape α :=
  match level with
  | .current => { body with lagrangianVelocity := velocity }
  | .half => { body with step := some { step with halfVelocity := velocity } }
  | .new => { body with step := some { step with newVelocity := velocity } }

/-- A list of texts between brackets. -/
def listDescription (items : List String) : String :=
  "[" ++ ", ".intercalate items ++ "]"

/-- A list of numbers as it is described. -/
def numbersDescription (numbers : List Float) : String :=
  listDescription (numbers.map descriptionText)

end RigidStructure

namespace StructureDescription

open RigidStructure

/-- A mesh as it is described; the name of its cells comes from their shape. -/
def meshDescription {shape : Shape} (cellName : String) (mesh : Mesh shape Float) : String :=
  let vertices := mesh.vertices.toList.map fun v =>
    numbersDescription (shape.dim.coords v).toList
  let cells := mesh.cells.toList.map fun cell =>
    cellName ++ "(" ++ listDescription (cell.toList.map toString) ++ ")"
  "Mesh \x7b vertices: " ++ listDescription vertices ++ ", connectivity: "
    ++ listDescription cells ++ " \x7d"

/-- The name of a cell of a shape. -/
def cellName : Shape → String
  | .triangle => "Tri3Connectivity"
  | .quadrilateral => "Quad4Connectivity"
  | .tetrahedron => "Tet4Connectivity"
  | .hexahedron => "Hex8Connectivity"

/-- A structure as it is described. -/
def text {shape : Shape} (description : StructureDescription shape Float) : String :=
  let vector (v : Vec3 Float) := listDescription [numbersDescription v.toList]
  "StructureDescription \x7b mesh: " ++ meshDescription (cellName shape) description.mesh
    ++ ", motion: " ++ description.motion.description
    ++ ", initial_velocity: RigidVelocity \x7b translational: "
    ++ vector description.initialVelocity.translational ++ ", rotational: "
    ++ vector description.initialVelocity.rotational ++ " \x7d, .. \x7d"

end StructureDescription

end ImmersedBody
