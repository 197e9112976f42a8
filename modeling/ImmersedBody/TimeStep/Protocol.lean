import ImmersedBody.TimeStep.Violation

/-!
# The protocol of a time step

`StepProtocol` is the state that the order of operations depends on: the phase, the window of the
open step, the two hand-offs, and whether the half-time state has been predicted.  An operation is
a function on this state that either yields a `StepOutcome`, which holds the next state, or a
violation; a violation yields no state, so it cannot change one.
-/

namespace ImmersedBody

/-- The state of the protocol. -/
structure StepProtocol (α : Type) where
  /-- The last successful operation of the step. -/
  phase : Phase
  window : Option (StepWindow α)
  /-- Whether an interpolation of the Lagrangian velocity has been requested. -/
  velocityRequested : Bool
  /-- Whether a constraint force has been set and not been spread yet. -/
  forcePending : Bool
  /-- Whether the half-time state has been predicted by a forward Euler step. -/
  predicted : Bool
  tolerance : α
deriving DecidableEq

/-- What is worth telling about an operation of the protocol. -/
inductive StepNotice (α : Type) where
  | began (window : StepWindow α)
  | ended (window : StepWindow α)
  /-- A requested interpolation never took place. -/
  | unconsumedRequest (window : StepWindow α)
  | skippedInterpolation
  | skippedSpreading
deriving DecidableEq

/-- What an accepted operation leads to. -/
structure StepOutcome (α β : Type) where
  value : β
  notices : List (StepNotice α)
  protocol : StepProtocol α
deriving DecidableEq

namespace StepProtocol

variable {α : Type}

/-- The state before the first step. -/
def initial (tolerance : α) : StepProtocol α where
  phase := .idle
  window := none
  velocityRequested := false
  forcePending := false
  predicted := false
  tolerance := tolerance

/-- Whether a hand-off has been produced and not been consumed yet. -/
def isReady (protocol : StepProtocol α) : Handoff → Bool
  | .lagrangianVelocity => protocol.velocityRequested
  | .constraintForce => protocol.forcePending

/-- The phase after an operation and the window of the step, if the operation is accepted. -/
def accept (protocol : StepProtocol α) (operation : Operation) :
    Except (Violation α) (Phase × StepWindow α) := do
  let next ← protocol.phase.transition operation
  match protocol.window with
  | some window => .ok (next, window)
  | none => .error (.notInStep operation)

/-- The window of the step, if the operation is accepted.  Nothing changes. -/
def check (protocol : StepProtocol α) (operation : Operation) :
    Except (Violation α) (StepWindow α) := do
  let (_, window) ← protocol.accept operation
  return window

/-- Carries out an operation that has no conditions but its place in the order. -/
def record (protocol : StepProtocol α) (operation : Operation) :
    Except (Violation α) (StepOutcome α (StepWindow α)) := do
  let (next, window) ← protocol.accept operation
  return ⟨window, [], { protocol with phase := next }⟩

/-- The state with no hand-off and no prediction. -/
def cleared (protocol : StepProtocol α) : StepProtocol α :=
  { protocol with velocityRequested := false, forcePending := false, predicted := false }

/-- Closes the step.  A force that was set but never spread is refused. -/
def endStep (protocol : StepProtocol α) : Except (Violation α) (StepOutcome α (StepWindow α)) := do
  let (next, window) ← protocol.accept .postprocess
  if protocol.forcePending then
    .error (.unconsumedProduction .constraintForce)
  else
    let pending := if protocol.velocityRequested then [.unconsumedRequest window] else []
    return ⟨window, pending ++ [.ended window],
      { protocol.cleared with phase := next, window := none }⟩

section

variable [Scalar α]

/-- Opens a step. -/
def beginStep (protocol : StepProtocol α) (current new : α) :
    Except (Violation α) (StepOutcome α (StepWindow α)) := do
  let next ← protocol.phase.transition .preprocess
  let window := StepWindow.between current new
  return ⟨window, [.began window],
    { protocol.cleared with phase := next, window := some window }⟩

/-- The level of a time, which has to be one of those that the operation accepts. -/
def expectTime (protocol : StepProtocol α) (operation : Operation) (window : StepWindow α)
    (time : α) (levels : List TimeLevel) : Except (Violation α) TimeLevel :=
  match window.match? protocol.tolerance time levels with
  | some level => .ok level
  | none => .error (.timeMismatch operation time window)

/-- Requests an interpolation of the Lagrangian velocity at the half time. -/
def requestInterpolation (protocol : StepProtocol α) (time : α) :
    Except (Violation α) (StepOutcome α Unit) := do
  let window ← protocol.check .requestInterpolation
  let _ ← protocol.expectTime .requestInterpolation window time [.half]
  if protocol.velocityRequested then
    .error (.duplicateProduction .lagrangianVelocity)
  else
    return ⟨(), [], { protocol with velocityRequested := true }⟩

/-- The level at which a force may be set at a time: the current or the new one. -/
def checkForce (protocol : StepProtocol α) (time : α) : Except (Violation α) TimeLevel := do
  let window ← protocol.check .setForce
  let level ← protocol.expectTime .setForce window time [.current, .new]
  if protocol.forcePending then
    .error (.duplicateProduction .constraintForce)
  else
    return level

/-- Hands over a constraint force that was set at a time. -/
def produceForce (protocol : StepProtocol α) (time : α) :
    Except (Violation α) (StepOutcome α TimeLevel) := do
  let level ← protocol.checkForce time
  let (next, _) ← protocol.accept .setForce
  return ⟨level, [], { protocol with phase := next, forcePending := true }⟩

/-- Checks a query of the Lagrangian velocity, which is known at the half time. -/
def queryVelocity (protocol : StepProtocol α) (time : α) : Except (Violation α) Unit := do
  let window ← protocol.check .getVelocity
  let _ ← protocol.expectTime .getVelocity window time [.half]
  return ()

/-- The level of a query of the constraint force: the current or the new one, or none of them. -/
def queryForce (protocol : StepProtocol α) (time : α) :
    Except (Violation α) (Option TimeLevel) := do
  let window ← protocol.check .getForce
  return window.match? protocol.tolerance time [.current, .new]

end

/-- Consumes a request for the Lagrangian velocity; without one, the phase stays the same. -/
def consumeRequest (protocol : StepProtocol α) : Except (Violation α) (StepOutcome α Bool) := do
  let (next, _) ← protocol.accept .interpolateVelocity
  if protocol.velocityRequested then
    return ⟨true, [], { protocol with phase := next, velocityRequested := false }⟩
  else
    return ⟨false, [.skippedInterpolation], protocol⟩

/--
Consumes a constraint force.  Without one, an open step is all that is needed; a force can only be
spread once the constraint solve has started.
-/
def consumeForce (protocol : StepProtocol α) : Except (Violation α) (StepOutcome α Bool) := do
  if protocol.forcePending then
    let (next, _) ← protocol.accept .spreadForce
    return ⟨true, [], { protocol with phase := next, forcePending := false }⟩
  else
    match protocol.window with
    | some _ => return ⟨false, [.skippedSpreading], protocol⟩
    | none => .error (.notInStep .spreadForce)

/-- Advances the positions by a rule. -/
def advance (protocol : StepProtocol α) (rule : AdvanceRule) :
    Except (Violation α) (StepOutcome α (StepWindow α)) := do
  let (next, window) ← protocol.accept (.advancePositions rule)
  if rule = .midpoint ∧ protocol.predicted = false then
    .error .midpointWithoutPrediction
  else
    return ⟨window, [],
      { protocol with phase := next, predicted := protocol.predicted || rule == .forwardEuler }⟩

end StepProtocol

end ImmersedBody
