import ImmersedBody.Rigid.Motion

/-!
# Transfer between a structure and a flow

The flow is known to a solver outside of this library.  A `FlowTransfer` samples the velocity of the
flow at the nodes of a structure and spreads forces from the nodes onto the flow.  What it keeps
from one call to the next is a state of its own.

`AnalyticFlow` has no grid.  It evaluates a velocity field at the nodes and adds up the forces that
are spread, per structure.
-/

namespace ImmersedBody

/-- The transfer of data between structures and a flow, with a state. -/
structure FlowTransfer (α σ : Type) where
  /-- Samples the velocity at a time onto the nodes of a structure, given their positions. -/
  interpolate : (part : Nat) → (positions : NodalField α) → (time : α) →
    EStateM (Stop α) (NodalField α × σ) Unit
  /-- Spreads forces at the nodes of a structure, given their positions. -/
  spread : (part : Nat) → (positions forces : NodalField α) → (time : α) →
    EStateM (Stop α) σ Unit

/-- The forces that have been spread so far. -/
structure SpreadTally (α : Type) where
  /-- The sum of the forces for every structure for which a force was spread. -/
  totals : List (Nat × Vec3 α)
  /-- How often forces were spread. -/
  calls : Nat

namespace SpreadTally

variable {α : Type}

/-- Before anything was spread. -/
def empty : SpreadTally α := ⟨[], 0⟩

/-- The sum of the forces for a structure. -/
def total [Zero α] (tally : SpreadTally α) (part : Nat) : Vec3 α :=
  (tally.totals.lookup part).getD 0

/-- Adds a force for a structure. -/
def add [Zero α] [Add α] (tally : SpreadTally α) (part : Nat) (force : Vec3 α) : SpreadTally α :=
  { tally with
    totals := (part, tally.total part + force) :: tally.totals.filter fun entry => entry.1 != part }

end SpreadTally

namespace AnalyticFlow

variable {α : Type} [Scalar α]

/-- Evaluates a velocity field at the nodes of a structure. -/
def sample (dim : Dim) (field : Vec3 α → α → Vec3 α) (positions : NodalField α) (time : α) :
    EStateM (Stop α) (NodalField α) Unit :=
  NodalVelocity.writeNodes dim fun node => do
    let x ← positions.vector dim node
    return field x time

/-- Adds up the forces at the nodes that the rank owns.  A node without values ends it. -/
def tally (dim : Dim) (part : Nat) (forces : NodalField α) :
    EStateM (Stop α) (SpreadTally α) Unit := do
  NodalVelocity.forNodes (fun node => do
    let force ← NodalVelocity.read (forces.vector dim node)
    modify fun tally => tally.add part force) forces.layout.nodes
  modify fun tally => { tally with calls := tally.calls + 1 }

/-- Adds up forces for a structure with any number, if so many structures fit into memory. -/
def tally? (dim : Dim) (part : Nat) (forces : NodalField α) :
    EStateM (Stop α) (SpreadTally α) Unit := fun state =>
  match Fault.checkMemory (3 * (part + 1)) with
  | .ok () => tally dim part forces state
  | .error fault => .error (.fault fault) state

/-- The transfer to and from a velocity field. -/
def transfer (dim : Dim) (field : Vec3 α → α → Vec3 α) : FlowTransfer α (SpreadTally α) where
  interpolate := fun _ positions time (velocity, state) =>
    match sample dim field positions time velocity with
    | .ok () velocity => .ok () (velocity, state)
    | .error e velocity => .error e (velocity, state)
  spread := fun part _ forces _ => tally dim part forces

/--
The transfer to and from a fluid at rest.  Its velocity is zero also at a point or a time that is
not finite.
-/
def atRest (dim : Dim) : FlowTransfer α (SpreadTally α) :=
  transfer dim fun _ _ => 0

end AnalyticFlow

end ImmersedBody
