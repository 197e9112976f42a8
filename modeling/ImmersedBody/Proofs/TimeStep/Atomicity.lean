import ImmersedBody.Proofs.TimeStep.Effects
import ImmersedBody.Proofs.Rational

/-!
# The operations of the step protocol are atomic

The operations of `StepProtocol` yield a next state or none, so nothing can be
left half done.  A protocol that is kept in one place is changed assignment by
assignment instead: the checks of an operation stand between its assignments,
and what was assigned before a check stays when the check fails.  `InPlace`
carries the operations out in that way.  Every operation turns out to be
refused before its first assignment, hence agrees with the operation that
yields its next state; and a check accepts exactly what the operation behind it
accepts.
-/

namespace ImmersedBody.StepProtocol

/-- Work on a protocol that is changed in place; a refusal keeps what was changed before it. -/
abbrev InPlace (α : Type) : Type → Type := EStateM (Violation α) (StepProtocol α)

variable {α β γ : Type}

/-! ## The operations, assignment by assignment -/

namespace InPlace

/-- Looks at the protocol; what does not hold refuses the work. -/
def inspect (look : StepProtocol α → Except (Violation α) β) : InPlace α β := do
  match look (← get) with
  | .ok value => return value
  | .error violation => throw violation

/-- Validates an operation and commits the phase it leads to. -/
def moveOn (operation : Operation) : InPlace α (StepWindow α) := do
  let next ← inspect fun protocol => protocol.phase.transition operation
  match (← get).window with
  | none => throw (.notInStep operation)
  | some window =>
    modify fun protocol => { protocol with phase := next }
    return window

/-- Forgets the hand-offs and the prediction, one after the other. -/
def clear : InPlace α Unit := do
  modify fun protocol => { protocol with velocityRequested := false }
  modify fun protocol => { protocol with forcePending := false }
  modify fun protocol => { protocol with predicted := false }

/-- Opens a step. -/
def beginStep [Scalar α] (current new : α) : InPlace α (StepWindow α) := do
  let next ← inspect fun protocol => protocol.phase.transition .preprocess
  modify fun protocol => { protocol with phase := next }
  let window := StepWindow.between current new
  modify fun protocol => { protocol with window := some window }
  clear
  return window

/-- Closes the step, unless a force was set and not spread. -/
def endStep : InPlace α (StepWindow α) := do
  let _ ← inspect (·.check .postprocess)
  if (← get).forcePending then
    throw (.unconsumedProduction .constraintForce)
  let window ← moveOn .postprocess
  modify fun protocol => { protocol with window := none }
  clear
  return window

/-- Requests an interpolation of the Lagrangian velocity at the half time. -/
def requestInterpolation [Scalar α] (time : α) : InPlace α Unit := do
  let window ← inspect (·.check .requestInterpolation)
  let _ ← inspect (·.expectTime .requestInterpolation window time [.half])
  if (← get).velocityRequested then
    throw (.duplicateProduction .lagrangianVelocity)
  modify fun protocol => { protocol with velocityRequested := true }

/-- Consumes a request for the Lagrangian velocity, if there is one. -/
def consumeRequest : InPlace α Bool := do
  let _ ← inspect (·.check .interpolateVelocity)
  if (← get).velocityRequested then
    let _ ← moveOn .interpolateVelocity
    modify fun protocol => { protocol with velocityRequested := false }
    return true
  return false

/-- Hands over a constraint force that was set at a time. -/
def produceForce [Scalar α] (time : α) : InPlace α TimeLevel := do
  let level ← inspect (·.checkForce time)
  let _ ← moveOn .setForce
  modify fun protocol => { protocol with forcePending := true }
  return level

/-- Consumes a constraint force; without one, an open step is all that is needed. -/
def consumeForce : InPlace α Bool := do
  if (← get).forcePending then
    let _ ← moveOn .spreadForce
    modify fun protocol => { protocol with forcePending := false }
    return true
  match (← get).window with
  | none => throw (.notInStep .spreadForce)
  | some _ => return false

/-- Advances the positions by a rule. -/
def advance (rule : AdvanceRule) : InPlace α (StepWindow α) := do
  let _ ← inspect (·.check (.advancePositions rule))
  if rule = .midpoint ∧ (← get).predicted = false then
    throw .midpointWithoutPrediction
  let window ← moveOn (.advancePositions rule)
  if rule = .forwardEuler then
    modify fun protocol => { protocol with predicted := true }
  return window

/-- Commits an operation that has no conditions but its place in the order. -/
def record (operation : Operation) : InPlace α (StepWindow α) := moveOn operation

/-- Carries a call out. -/
def perform [Scalar α] : Call α → InPlace α (Answer α)
  | .beginStep current new => .window <$> beginStep current new
  | .endStep => .window <$> endStep
  | .requestInterpolation time => (fun _ => .done) <$> requestInterpolation time
  | .consumeRequest => .consumed <$> consumeRequest
  | .checkForce time => (fun level => .level (some level)) <$> inspect (·.checkForce time)
  | .produceForce time => (fun level => .level (some level)) <$> produceForce time
  | .consumeForce => .consumed <$> consumeForce
  | .advance rule => .window <$> advance rule
  | .queryVelocity time => (fun _ => .done) <$> inspect (·.queryVelocity time)
  | .queryForce time => .level <$> inspect (·.queryForce time)
  | .check operation => .window <$> inspect (·.check operation)
  | .record operation => .window <$> record operation

end InPlace

/-! ## Agreement with the operations that yield their next state -/

/-- What becomes of a protocol in one place: it is replaced, or it stays as it was. -/
def replaced (protocol : StepProtocol α) :
    Except (Violation α) (β × StepProtocol α) → EStateM.Result (Violation α) (StepProtocol α) β
  | .ok (value, after) => .ok value after
  | .error violation => .error violation protocol

theorem pure_eq {ε : Type} (value : β) : (pure value : Except ε β) = .ok value := rfl

theorem ok_bind {ε : Type} (value : β) (rest : β → Except ε γ) :
    (Except.ok value >>= rest) = rest value := rfl

namespace InPlace

/-- The work has the outcome of an operation, and a refusal leaves the protocol as it was. -/
def Realizes (work : InPlace α β)
    (operation : StepProtocol α → Except (Violation α) (StepOutcome α β)) : Prop :=
  ∀ protocol, work.run protocol =
    protocol.replaced ((operation protocol).map fun outcome => (outcome.value, outcome.protocol))

theorem run_inspect (look : StepProtocol α → Except (Violation α) β) (protocol : StepProtocol α) :
    (inspect look).run protocol =
      protocol.replaced ((look protocol).map fun value => (value, protocol)) := by
  simp only [inspect, EStateM.run_bind, EStateM.run_get]
  cases look protocol <;> rfl

/-- Moving on is refused before its only assignment. -/
theorem run_moveOn (operation : Operation) (protocol : StepProtocol α) :
    (moveOn operation).run protocol =
      protocol.replaced ((protocol.accept operation).map fun accepted =>
        (accepted.2, { protocol with phase := accepted.1 })) := by
  simp only [moveOn, accept, EStateM.run_bind, run_inspect]
  cases (protocol.phase.transition operation : Except (Violation α) Phase) with
  | error violation =>
      rfl
  | ok next =>
      simp only [Except.map, replaced, EStateM.run_get, ok_bind]
      rcases protocol with ⟨phase, window, requested, pending, predicted, tolerance⟩
      cases window <;> rfl

theorem record_realizes (operation : Operation) :
    Realizes (record (α := α) operation) (·.record operation) := by
  intro protocol
  simp only [record, StepProtocol.record, run_moveOn]
  cases protocol.accept operation <;> rfl

theorem endStep_realizes : Realizes (endStep (α := α)) (·.endStep) := by
  intro protocol
  simp only [endStep, StepProtocol.endStep, check, EStateM.run_bind, run_inspect]
  cases accepted : protocol.accept .postprocess with
  | error violation =>
      rfl
  | ok found =>
      simp only [ok_bind, pure_eq, Except.map, replaced, EStateM.run_get]
      cases protocol.forcePending with
      | true =>
          rfl
      | false =>
          simp only [Bool.false_eq_true, ↓reduceIte, EStateM.run_bind, run_moveOn, accepted,
            replaced, Except.map]
          rfl

theorem consumeRequest_realizes : Realizes (consumeRequest (α := α)) (·.consumeRequest) := by
  intro protocol
  simp only [consumeRequest, StepProtocol.consumeRequest, check, EStateM.run_bind, run_inspect]
  cases accepted : protocol.accept .interpolateVelocity with
  | error violation =>
      rfl
  | ok found =>
      simp only [ok_bind, pure_eq, Except.map, replaced, EStateM.run_get]
      cases protocol.velocityRequested with
      | true =>
          simp only [↓reduceIte, EStateM.run_bind, run_moveOn, accepted, replaced, Except.map]
          rfl
      | false =>
          rfl

theorem consumeForce_realizes : Realizes (consumeForce (α := α)) (·.consumeForce) := by
  intro protocol
  simp only [consumeForce, StepProtocol.consumeForce, EStateM.run_bind, EStateM.run_get]
  cases protocol.forcePending with
  | true =>
      simp only [↓reduceIte, EStateM.run_bind, run_moveOn]
      cases protocol.accept .spreadForce <;> rfl
  | false =>
      simp only [Bool.false_eq_true, ↓reduceIte, EStateM.run_bind, EStateM.run_get]
      cases protocol.window <;> rfl

theorem advance_realizes (rule : AdvanceRule) :
    Realizes (advance (α := α) rule) (·.advance rule) := by
  intro protocol
  simp only [advance, StepProtocol.advance, check, EStateM.run_bind, run_inspect]
  cases accepted : protocol.accept (.advancePositions rule) with
  | error violation =>
      rfl
  | ok found =>
      simp only [ok_bind, pure_eq, Except.map, replaced, EStateM.run_get]
      by_cases unlicensed : rule = .midpoint ∧ protocol.predicted = false
      · simp only [if_pos unlicensed]
        rfl
      · simp only [if_neg unlicensed, EStateM.run_bind, run_moveOn, accepted, replaced, Except.map]
        cases rule with
        | forwardEuler =>
            exact congrArg (fun predicted => EStateM.Result.ok found.2
              { protocol with phase := found.1, predicted }) (Bool.or_true _).symm
        | midpoint | trapezoidal =>
            exact congrArg (fun predicted => EStateM.Result.ok found.2
              { protocol with phase := found.1, predicted }) (Bool.or_false _).symm

/-- A call that looks at the protocol answers what it finds and leaves the protocol as it is. -/
theorem run_map_inspect (answer : β → Answer α) (look : StepProtocol α → Except (Violation α) β)
    (protocol : StepProtocol α) :
    (answer <$> inspect look).run protocol =
      protocol.replaced ((look protocol).map fun value => (answer value, protocol)) := by
  rw [← bind_pure_comp, EStateM.run_bind, run_inspect]
  cases look protocol <;> rfl

/-- A call answers with what the operation behind it yields. -/
theorem Realizes.run_map {work : InPlace α β}
    {operation : StepProtocol α → Except (Violation α) (StepOutcome α β)}
    (realizes : Realizes work operation) (answer : β → Answer α) (protocol : StepProtocol α) :
    (answer <$> work).run protocol =
      protocol.replaced ((operation protocol).map (answered answer)) := by
  rw [← bind_pure_comp, EStateM.run_bind, realizes protocol]
  cases operation protocol <;> rfl

section

variable [Scalar α]

theorem beginStep_realizes (current new : α) :
    Realizes (beginStep current new) (·.beginStep current new) := by
  intro protocol
  simp only [beginStep, StepProtocol.beginStep, EStateM.run_bind, run_inspect]
  cases (protocol.phase.transition .preprocess : Except (Violation α) Phase) <;> rfl

theorem requestInterpolation_realizes (time : α) :
    Realizes (requestInterpolation time) (·.requestInterpolation time) := by
  intro protocol
  simp only [requestInterpolation, StepProtocol.requestInterpolation, EStateM.run_bind, run_inspect]
  cases protocol.check .requestInterpolation with
  | error violation =>
      rfl
  | ok window =>
      simp only [ok_bind, Except.map, replaced]
      cases protocol.expectTime .requestInterpolation window time [.half] with
      | error violation =>
          rfl
      | ok level =>
          simp only [ok_bind, EStateM.run_get]
          cases protocol.velocityRequested <;> rfl

theorem produceForce_realizes (time : α) :
    Realizes (produceForce time) (·.produceForce time) := by
  intro protocol
  simp only [produceForce, StepProtocol.produceForce, EStateM.run_bind, run_inspect]
  cases protocol.checkForce time with
  | error violation =>
      rfl
  | ok level =>
      simp only [ok_bind, Except.map, replaced, run_moveOn]
      cases protocol.accept .setForce <;> rfl

/-- Every call has the same outcome in place, and a refused call leaves the protocol as it was. -/
theorem run_perform (protocol : StepProtocol α) (call : Call α) :
    (perform call).run protocol = protocol.replaced (protocol.perform call) := by
  cases call with
  | beginStep current new => exact (beginStep_realizes current new).run_map .window protocol
  | endStep => exact endStep_realizes.run_map .window protocol
  | requestInterpolation time =>
      exact (requestInterpolation_realizes time).run_map (fun _ => .done) protocol
  | consumeRequest => exact consumeRequest_realizes.run_map .consumed protocol
  | checkForce time => exact run_map_inspect (fun level => .level (some level)) _ protocol
  | produceForce time =>
      exact (produceForce_realizes time).run_map (fun level => .level (some level)) protocol
  | consumeForce => exact consumeForce_realizes.run_map .consumed protocol
  | advance rule => exact (advance_realizes rule).run_map .window protocol
  | queryVelocity time => exact run_map_inspect (fun _ => .done) _ protocol
  | queryForce time => exact run_map_inspect .level _ protocol
  | check operation => exact run_map_inspect .window _ protocol
  | record operation => exact (record_realizes operation).run_map .window protocol

end

end InPlace

/-! ## Atomic operations, exact checks -/

variable {protocol after : StepProtocol α}

theorem replaced_eq_ok_iff {found : Except (Violation α) (β × StepProtocol α)} {value : β} :
    protocol.replaced found = .ok value after ↔ found = .ok (value, after) := by
  rcases found with violation | ⟨value', after'⟩ <;> simp [replaced]

theorem eq_of_replaced_eq_error {found : Except (Violation α) (β × StepProtocol α)}
    {violation : Violation α} (refused : protocol.replaced found = .error violation after) :
    after = protocol := by
  rcases found with violation' | ⟨value', after'⟩
  · cases refused
    rfl
  · cases refused

/-- An operation is recorded exactly when its check accepts it, with the same window. -/
theorem check_eq_ok_iff_run_record {operation : Operation} {window : StepWindow α} :
    protocol.check operation = .ok window ↔
      ∃ after, (InPlace.record operation).run protocol = .ok window after := by
  simp only [InPlace.record_realizes operation protocol, replaced_eq_ok_iff, map_eq_ok_iff,
    Prod.mk.injEq]
  constructor
  · intro checked
    rcases check_eq_ok_iff.mp checked with ⟨next, accepted, opened⟩
    exact ⟨_, _, record_eq_ok_iff.mpr ⟨next, window, accepted, opened, rfl⟩, rfl, rfl⟩
  · rintro ⟨after, outcome, recorded, rfl, rfl⟩
    rcases record_eq_ok_iff.mp recorded with ⟨next, window, accepted, opened, rfl⟩
    exact check_eq_ok_iff.mpr ⟨next, accepted, opened⟩

section

variable [Scalar α]

/-- What a consumer does not find, it does not consume. -/
theorem eq_of_skipped {call : Call α}
    (skipped : protocol.perform call = .ok (.consumed false, after)) : after = protocol := by
  cases effect_of_perform skipped with
  | interpolationSkipped | spreadingSkipped | inspected =>
      rfl

/-- A force is accepted exactly when the check before it accepts it, at the same level. -/
theorem checkForce_eq_ok_iff_run_produceForce {time : α} {level : TimeLevel} :
    protocol.checkForce time = .ok level ↔
      ∃ after, (InPlace.produceForce time).run protocol = .ok level after := by
  simp only [InPlace.produceForce_realizes time protocol, replaced_eq_ok_iff, map_eq_ok_iff,
    Prod.mk.injEq]
  constructor
  · intro checked
    rcases checkForce_eq_ok_iff.mp checked with ⟨window, ⟨next, accepted, opened⟩, -, -⟩
    exact ⟨_, _, produceForce_eq_ok_iff.mpr ⟨level, checked, next, window, accepted, opened, rfl⟩,
      rfl, rfl⟩
  · rintro ⟨after, outcome, produced, rfl, rfl⟩
    rcases produceForce_eq_ok_iff.mp produced with ⟨level, checked, next, window, -, -, rfl⟩
    exact checked

end

/--
In every state, also in those that no run reaches: the calls have the same outcomes in place; a
call that is refused and a consumer that finds nothing leave the protocol as it was; and the checks
of a force and of an operation accept exactly what is produced and recorded behind them.
-/
theorem calls_atomic [Scalar α] (protocol : StepProtocol α) :
    (∀ call, (InPlace.perform call).run protocol = protocol.replaced (protocol.perform call)) ∧
      (∀ call violation after,
        (InPlace.perform call).run protocol = .error violation after → after = protocol) ∧
      (∀ call after,
        (InPlace.perform call).run protocol = .ok (.consumed false) after → after = protocol) ∧
      (∀ time level, protocol.checkForce time = .ok level ↔
        ∃ after, (InPlace.produceForce time).run protocol = .ok level after) ∧
      ∀ operation window, protocol.check operation = .ok window ↔
        ∃ after, (InPlace.record operation).run protocol = .ok window after := by
  refine ⟨InPlace.run_perform protocol, ?_, ?_, fun time level => ?_, fun operation window => ?_⟩
  · intro call violation after refused
    rw [InPlace.run_perform] at refused
    exact eq_of_replaced_eq_error refused
  · intro call after skipped
    rw [InPlace.run_perform, replaced_eq_ok_iff] at skipped
    exact eq_of_skipped skipped
  · exact checkForce_eq_ok_iff_run_produceForce
  · exact check_eq_ok_iff_run_record

/--
In a solve without a prediction and without a pending force, an update is refused, a spreading is
skipped, and a force at the new time and the velocity of a structure are accepted.
-/
theorem calls_atomic_in_solve :
    let protocol : StepProtocol ℚ := ⟨.forceSpread, some ⟨0, 1 / 2, 1⟩, false, false, false, 0⟩
    (∃ after, (InPlace.perform (.advance .midpoint)).run protocol =
        .error .midpointWithoutPrediction after ∧ after = protocol) ∧
      (∃ after, (InPlace.perform .consumeForce).run protocol = .ok (.consumed false) after ∧
        after = protocol) ∧
      (∃ after, (InPlace.produceForce 1).run protocol = .ok .new after) ∧
      ∃ after, (InPlace.record .setVelocity).run protocol = .ok ⟨0, 1 / 2, 1⟩ after := by
  intro protocol
  rcases calls_atomic protocol with ⟨-, refused, skipped, force, operation⟩
  have update : (InPlace.perform (.advance .midpoint)).run protocol =
      .error .midpointWithoutPrediction protocol := rfl
  have spreading : (InPlace.perform .consumeForce).run protocol = .ok (.consumed false) protocol :=
    rfl
  have fresh : protocol.checkForce 1 = .ok .new := by decide +kernel
  have started : protocol.check .setVelocity = .ok ⟨0, 1 / 2, 1⟩ := rfl
  exact ⟨⟨protocol, update, refused _ _ _ update⟩, ⟨protocol, spreading, skipped _ _ spreading⟩,
    (force 1 .new).mp fresh, (operation .setVelocity _).mp started⟩

end ImmersedBody.StepProtocol
