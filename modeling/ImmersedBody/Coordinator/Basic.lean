import ImmersedBody.Field.Composite
import ImmersedBody.Ranks.Action
import ImmersedBody.Rigid.Structure
import ImmersedBody.TimeStep.Protocol

/-!
# The coordinator

A `Coordinator` holds all structures of a method on one rank and leads them through time steps:

1. A step is opened, which allocates the fields of the half and the new time.
2. The velocity of the flow is interpolated onto the structures, if that was requested.
3. A forward Euler step predicts the positions at the half time.
4. The constraint solver exchanges forces and velocities with the structures, and the constraint
   force is spread onto the flow.  These operations may repeat.
5. A midpoint step computes the new positions with the rigid velocity of the half time.
6. The step is closed and committed.

Every operation is checked by a `StepProtocol`.  Operations that touch distributed fields are
collective: they must be carried out in the same order on every rank.
-/

namespace ImmersedBody

/-- The structures of a method on one rank, and where they are in a time step. -/
structure Coordinator (shape : Shape) (α : Type) where
  settings : Settings α
  seat : Seat
  /-- The structures; their numbers are those of the parts of composite fields. -/
  structures : List (RigidStructure shape α)
  protocol : StepProtocol α
  currentForces : Option (CompositeField α)
  newForces : Option (CompositeField α)
  /-- The callers to be told before every solution of the fluid equations, in their order. -/
  listeners : List Nat
  /-- Whether the mass properties have been computed once. -/
  initialized : Bool

/-- What a listener is told before the fluid equations are solved. -/
structure FluidCall (α : Type) where
  listener : Nat
  current : α
  new : α
  cycle : Nat

namespace Coordinator

variable {α : Type} {shape : Shape}

/-- The name of the method. -/
def name (c : Coordinator shape α) : String :=
  c.settings.objectName

/-- Work on a coordinator that may stop. -/
abbrev Work (shape : Shape) (α β : Type) := Action α (Coordinator shape α) β

/-- Puts an attempt of the method around work. -/
def attempting {β : Type} (what : Attempt) (work : Work shape α β) : Work shape α β := do
  work.attempt (← get).name what

/-- The value that a check of the protocol yields. -/
def checking {β : Type} (what : Attempt) (check : Coordinator shape α → Except (Violation α) β) :
    Work shape α β := do
  attempting what (.require (check (← get)))

/-- Carries out an operation of the protocol. -/
def committing {β : Type}
    (operation : StepProtocol α → Except (Violation α) (StepOutcome α β)) : Work shape α β := do
  let ⟨value, notices, protocol⟩ ← Action.require (operation (← get).protocol)
  modify fun c => { c with protocol }
  Action.tell (notices.map .step)
  return value

/-- Works on every structure in order, together with a state that they share. -/
def forStructures {σ : Type} (action : Nat → Action α (RigidStructure shape α × σ) Unit) :
    Action α (Coordinator shape α × σ) Unit :=
  Action.of fun (c, shared) =>
    (Action.onEach action 0 c.structures shared).bind fun (outcome, structures, shared) =>
      .done (outcome, { c with structures }, shared)

/-- Works on every structure in order. -/
def forEachStructure (action : Nat → Action α (RigidStructure shape α) Unit) :
    Work shape α Unit :=
  Action.of fun c =>
    ((forStructures fun part => (action part).first).on (c, ())).bind fun (outcome, c, _) =>
      .done (outcome, c)

/-- The number of structures. -/
def count (c : Coordinator shape α) : Nat :=
  c.structures.length

/-- Refuses a number that no structure has. -/
def checkPart (part : Nat) (c : Coordinator shape α) : Except (Violation α) Unit :=
  if part < c.count then .ok () else .error (.structureOutOfRange part c.count)

/-- Refuses a composite field that does not have one part per structure. -/
def checkParts (composite : CompositeField α) (c : Coordinator shape α) :
    Except (Violation α) Unit :=
  if composite.parts.length = c.count then .ok ()
  else .error (.partCountMismatch c.count composite.parts.length)

/-- The fields of a structure that exist only during a step. -/
def stepFields (part : Nat) (body : RigidStructure shape α) : Except (Stop α) (StepFields α) :=
  match body.step with
  | some step => .ok step
  | none => .error (.because (.noStepData part))

/-- The level of a time, which has to be one of the three times of the step. -/
def levelOf [Scalar α] (c : Coordinator shape α) (operation : Operation) (window : StepWindow α)
    (time : α) : Except (Violation α) TimeLevel :=
  match window.match? c.settings.timeTolerance time [.current, .half, .new] with
  | some level => .ok level
  | none => .error (.timeMismatch operation time window)

section

variable [Scalar α]

/-- Sets up structures on a rank, in order. -/
def setUpAll (objectName : String) (seat : Seat) :
    (part : Nat) → List (StructureDescription shape α) →
      Except (Stop α) (List (RigidStructure shape α))
  | _, [] => .ok []
  | part, description :: descriptions => do
    let body ← (RigidStructure.setUp description seat).mapError (·.within objectName (.setUp part))
    let bodies ← setUpAll objectName seat (part + 1) descriptions
    return body :: bodies

/-- Registers structures, in order. -/
def register (settings : Settings α) (descriptions : List (StructureDescription shape α))
    (seat : Seat) : Collective α (Coordinator shape α) := do
  match settings.check with
  | .error e => throw (.because (.settings e))
  | .ok () =>
    let structures ← ExceptT.mk (pure (setUpAll settings.objectName seat 0 descriptions))
    ExceptT.lift
      (Task.tell (.registered settings.objectName structures.length seat.rank seat.size) (.done ()))
    return {
      settings, seat, structures
      protocol := .initial settings.timeTolerance
      currentForces := none
      newForces := none
      listeners := []
      initialized := false }

/-- A composite field of zeros with one part per structure. -/
def createComposite (c : Coordinator shape α) : Collective α (CompositeField α) :=
  CompositeField.assemble (c.structures.map fun body => .zeros body.layout)

end

/-- Adds a listener. -/
def listen (c : Coordinator shape α) (listener : Nat) : Coordinator shape α :=
  { c with listeners := c.listeners ++ [listener] }

/-- What the listeners are told before the fluid equations are solved, in their order. -/
def fluidCalls (c : Coordinator shape α) (current new : α) (cycle : Nat) : List (FluidCall α) :=
  c.listeners.map fun listener => ⟨listener, current, new, cycle⟩

end Coordinator

end ImmersedBody
