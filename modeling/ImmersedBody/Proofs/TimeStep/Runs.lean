import ImmersedBody.Proofs.TimeStep.Operations

/-!
# Runs of the step protocol

A `Call` is one call of the protocol with its operands, and a run is any finite
sequence of calls.  A call that is refused leaves the state as it is, and the
run goes on.
-/

namespace ImmersedBody.StepProtocol

variable {α : Type}

/-- A call of the protocol. -/
inductive Call (α : Type) where
  | beginStep (current new : α)
  | endStep
  | requestInterpolation (time : α)
  | consumeRequest
  | checkForce (time : α)
  | produceForce (time : α)
  | consumeForce
  | advance (rule : AdvanceRule)
  | queryVelocity (time : α)
  | queryForce (time : α)
  | check (operation : Operation)
  | record (operation : Operation)

/--
The coordinator records two operations only: the net force on a structure and
the velocity of a structure.
-/
def Call.IsCoordinated : Call α → Prop
  | .record operation => operation = .computeForce ∨ operation = .setVelocity
  | _ => True

/-- What a call yields. -/
inductive Answer (α : Type) where
  | done
  | window (window : StepWindow α)
  | level (level : Option TimeLevel)
  | consumed (available : Bool)

/-- The answer that an outcome stands for, and the next state. -/
def answered {β : Type} (answer : β → Answer α) (outcome : StepOutcome α β) :
    Answer α × StepProtocol α :=
  (answer outcome.value, outcome.protocol)

variable [Scalar α]

/-- The answer to a call and the next state, unless the call is refused. -/
def perform (protocol : StepProtocol α) :
    Call α → Except (Violation α) (Answer α × StepProtocol α)
  | .beginStep current new => (protocol.beginStep current new).map (answered .window)
  | .endStep => protocol.endStep.map (answered .window)
  | .requestInterpolation time =>
      (protocol.requestInterpolation time).map (answered fun _ => .done)
  | .consumeRequest => protocol.consumeRequest.map (answered .consumed)
  | .checkForce time => (protocol.checkForce time).map fun level => (.level (some level), protocol)
  | .produceForce time => (protocol.produceForce time).map (answered fun level => .level (some level))
  | .consumeForce => protocol.consumeForce.map (answered .consumed)
  | .advance rule => (protocol.advance rule).map (answered .window)
  | .queryVelocity time => (protocol.queryVelocity time).map fun _ => (.done, protocol)
  | .queryForce time => (protocol.queryForce time).map fun level => (.level level, protocol)
  | .check operation => (protocol.check operation).map fun window => (.window window, protocol)
  | .record operation => (protocol.record operation).map (answered .window)

/-- The state after a call. -/
def next (protocol : StepProtocol α) (call : Call α) : StepProtocol α :=
  match protocol.perform call with
  | .ok (_, after) => after
  | .error _ => protocol

/-- The state after a sequence of calls. -/
def run (protocol : StepProtocol α) (calls : List (Call α)) : StepProtocol α :=
  calls.foldl next protocol

/-- What holds of a state and of all states that a call can lead to holds after the call. -/
theorem next_induction {property : StepProtocol α → Prop} {protocol : StepProtocol α}
    {call : Call α} (before : property protocol)
    (performed : ∀ answer after, protocol.perform call = .ok (answer, after) → property after) :
    property (protocol.next call) := by
  unfold next
  cases found : protocol.perform call with
  | error violation =>
      exact before
  | ok outcome =>
      exact performed outcome.1 outcome.2 found

/-- What every call of a sequence preserves holds after the sequence. -/
theorem run_induction {property : StepProtocol α → Prop} {calls : List (Call α)}
    (preserved : ∀ call ∈ calls, ∀ protocol, property protocol → property (protocol.next call))
    {protocol : StepProtocol α} (before : property protocol) :
    property (protocol.run calls) := by
  induction calls generalizing protocol with
  | nil =>
      exact before
  | cons call calls ih =>
      have first : property (protocol.next call) :=
        preserved call List.mem_cons_self protocol before
      exact ih (fun later member => preserved later (List.mem_cons_of_mem call member)) first

end ImmersedBody.StepProtocol
