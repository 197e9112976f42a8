import ImmersedBody.TimeStep.Phase
import ImmersedBody.TimeStep.Window

/-!
# Violations of the order of a time step

Continuing after a violation would produce silently wrong physics, so each one is an error of its
own, with a message that names the operation.
-/

namespace ImmersedBody

/-- What is handed from one operation of a step to a later one. -/
inductive Handoff where
  /-- Produced by a request for the Lagrangian velocity, consumed by its interpolation. -/
  | lagrangianVelocity
  /-- Produced by setting the constraint force, consumed by spreading it. -/
  | constraintForce
deriving DecidableEq, Repr

namespace Handoff

/-- The name of a hand-off. -/
def name : Handoff → String
  | lagrangianVelocity => "LagrangianVelocity"
  | constraintForce => "ConstraintForce"

/-- All hand-offs by name. -/
def byName : List (String × Handoff) :=
  [lagrangianVelocity, constraintForce].map fun handoff => (handoff.name, handoff)

/-- A hand-off as it is called in messages. -/
def message : Handoff → String
  | lagrangianVelocity => "Lagrangian velocity"
  | constraintForce => "constraint force"

end Handoff

/-- Violations of the order in which a time step is carried out. -/
inductive Violation (α : Type) where
  | notInStep (operation : Operation)
  | alreadyPreprocessed
  | unsupportedRule (rule : AdvanceRule)
  /-- The midpoint update needs the half-time state of a forward Euler step. -/
  | midpointWithoutPrediction
  /-- A hand-off was produced again before it was consumed. -/
  | duplicateProduction (handoff : Handoff)
  /-- A time is none of those that the operation accepts. -/
  | timeMismatch (operation : Operation) (time : α) (window : StepWindow α)
  /-- A composite field does not have one part per structure. -/
  | partCountMismatch (expected found : Nat)
  | structureOutOfRange (index count : Nat)
  /-- The velocity of a structure with a prescribed motion cannot be set. -/
  | prescribedVelocity (index : Nat)
  | illegalTransition (phase : Phase) (operation : Operation)
  /-- The step was closed while a hand-off waited to be consumed. -/
  | unconsumedProduction (handoff : Handoff)
deriving DecidableEq

namespace Violation

variable {α : Type}

/-- The violation that consists in an operation being refused in a phase. -/
def ofRefusal (phase : Phase) (operation : Operation) : Refusal → Violation α
  | .notInStep => notInStep operation
  | .alreadyOpen => alreadyPreprocessed
  | .unsupportedRule rule => unsupportedRule rule
  | .outOfOrder => illegalTransition phase operation

/-- The name of a violation, by which callers tell violations apart. -/
def name : Violation α → String
  | notInStep _ => "NotInStep"
  | alreadyPreprocessed => "AlreadyPreprocessed"
  | unsupportedRule _ => "UnsupportedTimeStepping"
  | midpointWithoutPrediction => "MidpointWithoutPrediction"
  | duplicateProduction _ => "DuplicateProduction"
  | timeMismatch _ _ _ => "TimeMismatch"
  | partCountMismatch _ _ => "SubVectorCountMismatch"
  | structureOutOfRange _ _ => "StructureOutOfRange"
  | prescribedVelocity _ => "PrescribedVelocityOverride"
  | illegalTransition _ _ => "IllegalTransition"
  | unconsumedProduction _ => "UnconsumedProduction"

/-- The message of a violation. -/
def message : Violation Float → String
  | notInStep operation => operation.message ++ " called outside of a time step."
  | alreadyPreprocessed =>
    Operation.preprocess.message ++ " called twice without " ++ Operation.postprocess.message ++ "."
  | unsupportedRule rule =>
    "The " ++ rule.message ++ " rule is not supported for position updates of rigid structures. "
      ++ "Only the midpoint rule is supported."
  | midpointWithoutPrediction =>
    "Midpoint step requires a preceding forward Euler step in the same time step."
  | duplicateProduction handoff =>
    "The " ++ handoff.message ++ " was produced twice without being consumed."
  | timeMismatch operation time window =>
    operation.message ++ " called with time " ++ messageText time
      ++ ", which does not match the time step " ++ StepWindow.message window ++ "."
  | partCountMismatch expected found =>
    s!"Composite vector has {found} sub-vectors, but there are {expected} structures."
  | structureOutOfRange index count =>
    s!"Structure index {index} out of range ({count} structures)."
  | prescribedVelocity index =>
    s!"The velocity of structure {index} is prescribed and can not be set."
  | illegalTransition phase operation =>
    operation.message ++ " is not allowed in phase " ++ phase.name ++ "."
  | unconsumedProduction handoff =>
    "The " ++ handoff.message ++ " was produced but never consumed."

end Violation

/-- The phase after an operation, or the violation that it would be. -/
def Phase.transition {α : Type} (phase : Phase) (operation : Operation) :
    Except (Violation α) Phase :=
  match phase.after operation with
  | .ok next => .ok next
  | .error refusal => .error (.ofRefusal phase operation refusal)

end ImmersedBody
