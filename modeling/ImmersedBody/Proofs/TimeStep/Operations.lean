import ImmersedBody.Proofs.Outcomes
import ImmersedBody.TimeStep.Protocol

/-!
# What the operations of the step protocol do

The transition table is read off operation by operation: when an operation is
accepted, and to which phase it leads.  From it follows for every operation of
`StepProtocol` exactly when it succeeds and with which outcome.  Later modules
argue from these equivalences and never open an operation again.
-/

namespace ImmersedBody

/-! ## The transition table -/

namespace Phase

variable {phase next : Phase}

theorem after_preprocess_eq_ok_iff :
    phase.after .preprocess = .ok next ↔
      phase.inStep = false ∧ next = .preprocessed := by
  cases phase <;> cases next <;> simp [after, inStep]

theorem after_interpolateVelocity_eq_ok_iff :
    phase.after .interpolateVelocity = .ok next ↔
      phase.inStep = true ∧
        next = if phase.predicting then .velocityInterpolated else phase := by
  cases phase <;> cases next <;> simp [after, inStep, predicting]

theorem after_forwardEuler_eq_ok_iff :
    phase.after (.advancePositions .forwardEuler) = .ok next ↔
      phase.predicting = true ∧ next = .positionAdvanced := by
  cases phase <;> cases next <;> simp [after, inStep, predicting]

theorem after_midpoint_eq_ok_iff :
    phase.after (.advancePositions .midpoint) = .ok next ↔
      (phase.inStep = true ∧ phase ≠ .forceSet) ∧ next = .positionAdvanced := by
  cases phase <;> cases next <;> simp [after, inStep]

@[simp]
theorem after_trapezoidal_ne_ok :
    phase.after (.advancePositions .trapezoidal) ≠ .ok next := by
  cases phase <;> simp [after, inStep]

theorem after_setForce_eq_ok_iff :
    phase.after .setForce = .ok next ↔
      phase.inStep = true ∧ next = .forceSet := by
  cases phase <;> cases next <;> simp [after, inStep]

theorem after_computeForce_eq_ok_iff :
    phase.after .computeForce = .ok next ↔
      phase.solving = true ∧ next = .forceConsumed := by
  cases phase <;> cases next <;> simp [after, inStep, solving]

theorem after_setVelocity_eq_ok_iff :
    phase.after .setVelocity = .ok next ↔
      (phase.solving = true ∨ phase = .positionAdvanced) ∧ next = .velocitySet := by
  cases phase <;> cases next <;> simp [after, inStep, solving]

theorem after_spreadForce_eq_ok_iff :
    phase.after .spreadForce = .ok next ↔
      (phase.solving = true ∨ phase = .positionAdvanced) ∧ next = .forceSpread := by
  cases phase <;> cases next <;> simp [after, inStep, solving]

theorem after_postprocess_eq_ok_iff :
    phase.after .postprocess = .ok next ↔
      (phase = .positionAdvanced ∨ phase = .forceConsumed ∨ phase = .velocitySet ∨
        phase = .forceSpread) ∧ next = .postprocessed := by
  cases phase <;> cases next <;> simp [after, inStep]

theorem after_requestInterpolation_eq_ok_iff :
    phase.after .requestInterpolation = .ok next ↔
      phase.inStep = true ∧ next = phase := by
  cases phase <;> cases next <;> simp [after, inStep]

/-- Only the opening and the closing of a step lead into it or out of it. -/
theorem inStep_of_after {operation : Operation} (accepted : phase.after operation = .ok next)
    (notOpening : operation ≠ .preprocess) (notClosing : operation ≠ .postprocess) :
    phase.inStep = true ∧ next.inStep = true := by
  cases operation with
  | preprocess =>
      exact absurd rfl notOpening
  | postprocess =>
      exact absurd rfl notClosing
  | interpolateVelocity =>
      rcases after_interpolateVelocity_eq_ok_iff.mp accepted with ⟨inStep, rfl⟩
      refine ⟨inStep, ?_⟩
      split
      · rfl
      · exact inStep
  | advancePositions rule =>
      cases rule with
      | forwardEuler =>
          rcases after_forwardEuler_eq_ok_iff.mp accepted with ⟨predicting, rfl⟩
          exact ⟨by revert predicting; cases phase <;> simp [Phase.predicting, inStep], rfl⟩
      | midpoint =>
          rcases after_midpoint_eq_ok_iff.mp accepted with ⟨⟨inStep, -⟩, rfl⟩
          exact ⟨inStep, rfl⟩
      | trapezoidal =>
          exact absurd accepted after_trapezoidal_ne_ok
  | requestInterpolation | getVelocity | setForce | getForce | computeForce | setVelocity
    | spreadForce =>
      revert accepted
      cases phase <;> cases next <;> simp [after, inStep, solving]

/-- An operation with a violation is one that the table refuses. -/
theorem transition_eq_ok_iff {α : Type} {operation : Operation} :
    (phase.transition operation : Except (Violation α) Phase) = .ok next ↔
      phase.after operation = .ok next := by
  unfold transition
  cases phase.after operation <;> simp

end Phase

/-! ## The operations of the protocol -/

namespace StepProtocol

variable {α : Type} {protocol : StepProtocol α}

theorem accept_eq_ok_iff {operation : Operation} {next : Phase} {window : StepWindow α} :
    protocol.accept operation = .ok (next, window) ↔
      protocol.phase.after operation = .ok next ∧ protocol.window = some window := by
  unfold accept
  simp only [bind_eq_ok_iff, Phase.transition_eq_ok_iff]
  cases protocol.window with
  | none =>
      simp
  | some opened =>
      simp only [Except.ok.injEq, Prod.mk.injEq, Option.some.injEq]
      constructor
      · rintro ⟨found, accepted, rfl, same⟩
        exact ⟨accepted, same⟩
      · rintro ⟨accepted, same⟩
        exact ⟨next, accepted, rfl, same⟩

theorem check_eq_ok_iff {operation : Operation} {window : StepWindow α} :
    protocol.check operation = .ok window ↔
      ∃ next, protocol.phase.after operation = .ok next ∧ protocol.window = some window := by
  unfold check
  simp only [bind_eq_ok_iff, pure_eq_ok_iff, Prod.exists, accept_eq_ok_iff]
  constructor
  · rintro ⟨next, found, ⟨accepted, opened⟩, rfl⟩
    exact ⟨next, accepted, opened⟩
  · rintro ⟨next, accepted, opened⟩
    exact ⟨next, window, ⟨accepted, opened⟩, rfl⟩

theorem record_eq_ok_iff {operation : Operation} {outcome : StepOutcome α (StepWindow α)} :
    protocol.record operation = .ok outcome ↔
      ∃ next window, protocol.phase.after operation = .ok next ∧
        protocol.window = some window ∧
        outcome = ⟨window, [], { protocol with phase := next }⟩ := by
  unfold record
  simp only [bind_eq_ok_iff, pure_eq_ok_iff, Prod.exists, accept_eq_ok_iff, and_assoc]

theorem endStep_eq_ok_iff {outcome : StepOutcome α (StepWindow α)} :
    protocol.endStep = .ok outcome ↔
      ∃ next window, protocol.phase.after .postprocess = .ok next ∧
        protocol.window = some window ∧ ¬ protocol.forcePending = true ∧
        outcome = ⟨window,
          (if protocol.velocityRequested then [.unconsumedRequest window] else []) ++
            [.ended window],
          { protocol.cleared with phase := next, window := none }⟩ := by
  unfold endStep
  simp only [bind_eq_ok_iff, pure_eq_ok_iff, Prod.exists, accept_eq_ok_iff,
    refuse_eq_ok_iff, and_assoc]

theorem consumeRequest_eq_ok_iff {outcome : StepOutcome α Bool} :
    protocol.consumeRequest = .ok outcome ↔
      ∃ next window, protocol.phase.after .interpolateVelocity = .ok next ∧
        protocol.window = some window ∧
        outcome = if protocol.velocityRequested
          then ⟨true, [], { protocol with phase := next, velocityRequested := false }⟩
          else ⟨false, [.skippedInterpolation], protocol⟩ := by
  unfold consumeRequest
  simp only [bind_eq_ok_iff, Prod.exists, accept_eq_ok_iff, and_assoc]
  cases protocol.velocityRequested <;> simp [pure_eq_ok_iff]

/-- A pending force is consumed where spreading is accepted; without one, an open step is enough. -/
theorem consumeForce_eq_ok_iff {outcome : StepOutcome α Bool} :
    protocol.consumeForce = .ok outcome ↔
      (protocol.forcePending = true ∧
        ∃ next window, protocol.phase.after .spreadForce = .ok next ∧
          protocol.window = some window ∧
          outcome = ⟨true, [], { protocol with phase := next, forcePending := false }⟩) ∨
      (protocol.forcePending = false ∧
        ∃ window, protocol.window = some window ∧
          outcome = ⟨false, [.skippedSpreading], protocol⟩) := by
  unfold consumeForce
  cases protocol.forcePending with
  | true =>
      simp only [if_true, bind_eq_ok_iff, pure_eq_ok_iff, Prod.exists, accept_eq_ok_iff,
        and_assoc]
      simp
  | false =>
      cases protocol.window <;> simp [pure_eq_ok_iff]

theorem advance_eq_ok_iff {rule : AdvanceRule} {outcome : StepOutcome α (StepWindow α)} :
    protocol.advance rule = .ok outcome ↔
      ∃ next window, protocol.phase.after (.advancePositions rule) = .ok next ∧
        protocol.window = some window ∧
        ¬ (rule = .midpoint ∧ protocol.predicted = false) ∧
        outcome = ⟨window, [],
          { protocol with
            phase := next, predicted := protocol.predicted || rule == .forwardEuler }⟩ := by
  unfold advance
  simp only [bind_eq_ok_iff, pure_eq_ok_iff, Prod.exists, accept_eq_ok_iff,
    refuse_eq_ok_iff, and_assoc]

section

variable [Scalar α]

theorem beginStep_eq_ok_iff {current new : α} {outcome : StepOutcome α (StepWindow α)} :
    protocol.beginStep current new = .ok outcome ↔
      ∃ next, protocol.phase.after .preprocess = .ok next ∧
        outcome = ⟨.between current new, [.began (.between current new)],
          { protocol.cleared with
            phase := next, window := some (.between current new) }⟩ := by
  unfold beginStep
  simp only [bind_eq_ok_iff, pure_eq_ok_iff, Phase.transition_eq_ok_iff]

theorem expectTime_eq_ok_iff {operation : Operation} {window : StepWindow α} {time : α}
    {levels : List TimeLevel} {level : TimeLevel} :
    protocol.expectTime operation window time levels = .ok level ↔
      window.match? protocol.tolerance time levels = some level := by
  unfold expectTime
  cases window.match? protocol.tolerance time levels <;> simp

theorem requestInterpolation_eq_ok_iff {time : α} {outcome : StepOutcome α Unit} :
    protocol.requestInterpolation time = .ok outcome ↔
      ∃ window, (∃ next, protocol.phase.after .requestInterpolation = .ok next ∧
          protocol.window = some window) ∧
        (∃ level, window.match? protocol.tolerance time [.half] = some level ∧
          ¬ protocol.velocityRequested = true ∧
          outcome = ⟨(), [], { protocol with velocityRequested := true }⟩) := by
  unfold requestInterpolation
  simp only [bind_eq_ok_iff, pure_eq_ok_iff, check_eq_ok_iff, expectTime_eq_ok_iff,
    refuse_eq_ok_iff]

theorem checkForce_eq_ok_iff {time : α} {level : TimeLevel} :
    protocol.checkForce time = .ok level ↔
      ∃ window, (∃ next, protocol.phase.after .setForce = .ok next ∧
          protocol.window = some window) ∧
        window.match? protocol.tolerance time [.current, .new] = some level ∧
        ¬ protocol.forcePending = true := by
  unfold checkForce
  simp only [bind_eq_ok_iff, pure_eq_ok_iff, check_eq_ok_iff, expectTime_eq_ok_iff,
    refuse_eq_ok_iff]
  constructor
  · rintro ⟨window, opened, found, matched, fresh, rfl⟩
    exact ⟨window, opened, matched, fresh⟩
  · rintro ⟨window, opened, matched, fresh⟩
    exact ⟨window, opened, level, matched, fresh, rfl⟩

theorem produceForce_eq_ok_iff {time : α} {outcome : StepOutcome α TimeLevel} :
    protocol.produceForce time = .ok outcome ↔
      ∃ level, protocol.checkForce time = .ok level ∧
        ∃ next window, protocol.phase.after .setForce = .ok next ∧
          protocol.window = some window ∧
          outcome = ⟨level, [], { protocol with phase := next, forcePending := true }⟩ := by
  unfold produceForce
  simp only [bind_eq_ok_iff, pure_eq_ok_iff, Prod.exists, accept_eq_ok_iff, and_assoc]

end

end StepProtocol

end ImmersedBody
