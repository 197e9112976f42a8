import ImmersedBody.Proofs.Rational
import ImmersedBody.Proofs.TimeStep.Runs

/-!
# Consistency of the step protocol

Phase, window, hand-offs and prediction are updated by different operations,
and several of these change the phase without touching the rest.  `Consistent`
says how the parts of the state fit together.  It holds before the first step
and every operation preserves it, so it holds in every state that the calls of
a coordinator can lead to.
-/

namespace ImmersedBody.StepProtocol

variable {α : Type}

/-- The parts of the state fit together. -/
structure Consistent (protocol : StepProtocol α) : Prop where
  /-- There is a window exactly during a step. -/
  window_isSome_iff : protocol.window.isSome = true ↔ protocol.phase.inStep = true
  /-- Outside of a step nothing waits to be consumed and nothing is predicted. -/
  outside : protocol.phase.inStep = false →
    protocol.velocityRequested = false ∧ protocol.forcePending = false ∧
      protocol.predicted = false
  /-- Before positions are advanced nothing is predicted and no force is pending. -/
  predicting : protocol.phase = .preprocessed ∨ protocol.phase = .velocityInterpolated →
    protocol.predicted = false ∧ protocol.forcePending = false
  /-- Positions are not advanced without a prediction. -/
  advanced : protocol.phase = .positionAdvanced → protocol.predicted = true
  /-- A force that has just been set is pending. -/
  forceSet : protocol.phase = .forceSet → protocol.forcePending = true
  /-- A pending force can be spread. -/
  spreadable : protocol.forcePending = true →
    ∃ next, (protocol.phase.transition .spreadForce : Except (Violation α) Phase) = .ok next

theorem transition_spreadForce_iff {phase : Phase} :
    (∃ next, (phase.transition .spreadForce : Except (Violation α) Phase) = .ok next) ↔
      phase.solving = true ∨ phase = .positionAdvanced := by
  simp [Phase.transition_eq_ok_iff, Phase.after_spreadForce_eq_ok_iff]

theorem consistent_initial (tolerance : α) : (initial tolerance).Consistent := by
  constructor <;> simp [initial, Phase.inStep]

/-! ## One operation

Most operations leave a consistent state behind whatever the state was before.
-/

variable {protocol : StepProtocol α}

theorem consistent_of_endStep {outcome : StepOutcome α (StepWindow α)}
    (ended : protocol.endStep = .ok outcome) : outcome.protocol.Consistent := by
  rcases endStep_eq_ok_iff.mp ended with ⟨next, window, accepted, -, -, rfl⟩
  rcases Phase.after_postprocess_eq_ok_iff.mp accepted with ⟨-, rfl⟩
  constructor <;> simp [cleared, Phase.inStep]

theorem consistent_of_advance {rule : AdvanceRule} {outcome : StepOutcome α (StepWindow α)}
    (advanced : protocol.advance rule = .ok outcome) : outcome.protocol.Consistent := by
  rcases advance_eq_ok_iff.mp advanced with ⟨next, window, accepted, opened, licensed, rfl⟩
  cases rule with
  | forwardEuler =>
      rcases Phase.after_forwardEuler_eq_ok_iff.mp accepted with ⟨-, rfl⟩
      constructor <;> simp [Phase.inStep, opened, transition_spreadForce_iff]
  | midpoint =>
      rcases Phase.after_midpoint_eq_ok_iff.mp accepted with ⟨-, rfl⟩
      have predicted : protocol.predicted = true := by simpa using licensed
      constructor <;> simp [Phase.inStep, opened, predicted, transition_spreadForce_iff]
  | trapezoidal =>
      exact absurd accepted Phase.after_trapezoidal_ne_ok

theorem consistent_of_record {operation : Operation}
    (coordinated : operation = .computeForce ∨ operation = .setVelocity)
    {outcome : StepOutcome α (StepWindow α)} (recorded : protocol.record operation = .ok outcome) :
    outcome.protocol.Consistent := by
  rcases record_eq_ok_iff.mp recorded with ⟨next, window, accepted, opened, rfl⟩
  rcases coordinated with rfl | rfl
  · rcases Phase.after_computeForce_eq_ok_iff.mp accepted with ⟨-, rfl⟩
    constructor <;> simp [Phase.inStep, Phase.solving, opened, transition_spreadForce_iff]
  · rcases Phase.after_setVelocity_eq_ok_iff.mp accepted with ⟨-, rfl⟩
    constructor <;> simp [Phase.inStep, Phase.solving, opened, transition_spreadForce_iff]

theorem consistent_of_beginStep [Scalar α] {current new : α}
    {outcome : StepOutcome α (StepWindow α)}
    (begun : protocol.beginStep current new = .ok outcome) :
    outcome.protocol.Consistent := by
  rcases beginStep_eq_ok_iff.mp begun with ⟨next, accepted, rfl⟩
  rcases Phase.after_preprocess_eq_ok_iff.mp accepted with ⟨-, rfl⟩
  constructor <;> simp [cleared, Phase.inStep]

theorem consistent_of_produceForce [Scalar α] {time : α} {outcome : StepOutcome α TimeLevel}
    (produced : protocol.produceForce time = .ok outcome) : outcome.protocol.Consistent := by
  rcases produceForce_eq_ok_iff.mp produced with ⟨level, -, next, window, accepted, opened, rfl⟩
  rcases Phase.after_setForce_eq_ok_iff.mp accepted with ⟨-, rfl⟩
  constructor <;> simp [Phase.inStep, Phase.solving, opened, transition_spreadForce_iff]

namespace Consistent

/-- During a step, whether an interpolation is requested does not matter. -/
theorem withRequest (consistent : protocol.Consistent) (inStep : protocol.phase.inStep = true)
    (requested : Bool) : { protocol with velocityRequested := requested }.Consistent where
  window_isSome_iff := consistent.window_isSome_iff
  outside := fun outside => by simp [outside] at inStep
  predicting := consistent.predicting
  advanced := consistent.advanced
  forceSet := consistent.forceSet
  spreadable := consistent.spreadable

theorem consumeRequest (consistent : protocol.Consistent) {outcome : StepOutcome α Bool}
    (consumed : protocol.consumeRequest = .ok outcome) : outcome.protocol.Consistent := by
  rcases consumeRequest_eq_ok_iff.mp consumed with ⟨next, window, accepted, opened, equal⟩
  rcases Phase.after_interpolateVelocity_eq_ok_iff.mp accepted with ⟨inStep, rfl⟩
  cases requested : protocol.velocityRequested with
  | false =>
      rw [requested] at equal
      subst equal
      exact consistent
  | true =>
      rw [requested] at equal
      subst equal
      by_cases predicting : protocol.phase.predicting = true
      · have early : protocol.phase = .preprocessed ∨
            protocol.phase = .velocityInterpolated := by
          revert predicting
          cases protocol.phase <;> simp [Phase.predicting]
        rcases consistent.predicting early with ⟨unpredicted, fresh⟩
        constructor <;> simp [predicting, Phase.inStep, opened, unpredicted, fresh]
      · -- the phase stays, and only the request is gone
        simpa [predicting] using consistent.withRequest inStep false

theorem consumeForce (consistent : protocol.Consistent) {outcome : StepOutcome α Bool}
    (consumed : protocol.consumeForce = .ok outcome) : outcome.protocol.Consistent := by
  rcases consumeForce_eq_ok_iff.mp consumed with
    ⟨-, next, window, accepted, opened, rfl⟩ | ⟨-, window, -, rfl⟩
  · rcases Phase.after_spreadForce_eq_ok_iff.mp accepted with ⟨-, rfl⟩
    constructor <;> simp [Phase.inStep, opened]
  · exact consistent

variable [Scalar α]

theorem requestInterpolation (consistent : protocol.Consistent) {time : α}
    {outcome : StepOutcome α Unit} (requested : protocol.requestInterpolation time = .ok outcome) :
    outcome.protocol.Consistent := by
  rcases requestInterpolation_eq_ok_iff.mp requested with
    ⟨window, ⟨next, accepted, -⟩, level, -, -, rfl⟩
  rcases Phase.after_requestInterpolation_eq_ok_iff.mp accepted with ⟨inStep, -⟩
  exact consistent.withRequest inStep true

/-! ## One call -/

theorem perform (consistent : protocol.Consistent) {call : Call α}
    (coordinated : call.IsCoordinated) {answer : Answer α} {after : StepProtocol α}
    (performed : protocol.perform call = .ok (answer, after)) : after.Consistent := by
  cases call with
  | beginStep current new =>
      rcases map_eq_ok_iff.mp performed with ⟨outcome, begun, equal⟩
      cases equal
      exact consistent_of_beginStep begun
  | endStep =>
      rcases map_eq_ok_iff.mp performed with ⟨outcome, ended, equal⟩
      cases equal
      exact consistent_of_endStep ended
  | requestInterpolation time =>
      rcases map_eq_ok_iff.mp performed with ⟨outcome, requested, equal⟩
      cases equal
      exact consistent.requestInterpolation requested
  | consumeRequest =>
      rcases map_eq_ok_iff.mp performed with ⟨outcome, consumed, equal⟩
      cases equal
      exact consistent.consumeRequest consumed
  | produceForce time =>
      rcases map_eq_ok_iff.mp performed with ⟨outcome, produced, equal⟩
      cases equal
      exact consistent_of_produceForce produced
  | consumeForce =>
      rcases map_eq_ok_iff.mp performed with ⟨outcome, consumed, equal⟩
      cases equal
      exact consistent.consumeForce consumed
  | advance rule =>
      rcases map_eq_ok_iff.mp performed with ⟨outcome, advanced, equal⟩
      cases equal
      exact consistent_of_advance advanced
  | record operation =>
      rcases map_eq_ok_iff.mp performed with ⟨outcome, recorded, equal⟩
      cases equal
      exact consistent_of_record coordinated recorded
  | checkForce time | queryVelocity time | queryForce time | check operation =>
      -- nothing changes
      rcases map_eq_ok_iff.mp performed with ⟨found, -, equal⟩
      cases equal
      exact consistent

theorem next (consistent : protocol.Consistent) {call : Call α}
    (coordinated : call.IsCoordinated) : (protocol.next call).Consistent :=
  next_induction consistent fun _ _ performed => consistent.perform coordinated performed

end Consistent

/-! ## Whole runs -/

/-- Whatever the calls of a coordinator are, and whether they succeed, the state is consistent. -/
theorem consistent_run_initial [Scalar α] (tolerance : α) (calls : List (Call α))
    (coordinated : ∀ call ∈ calls, call.IsCoordinated) :
    ((initial tolerance).run calls).Consistent :=
  run_induction
    (fun call member _ consistent => consistent.next (coordinated call member))
    (consistent_initial tolerance)

/-- Positions may be advanced while a force is pending, which leaves the state consistent. -/
theorem consistent_after_midpoint_with_pending_force :
    let calls : List (Call ℚ) :=
      [.beginStep 0 1, .advance .forwardEuler, .produceForce 1, .record .computeForce,
        .advance .midpoint]
    let protocol := (initial (1 / 1000)).run calls
    (∀ call ∈ calls, call.IsCoordinated) ∧ protocol.phase = .positionAdvanced ∧
      protocol.forcePending = true ∧ protocol.Consistent := by
  have coordinated : ∀ call ∈ [Call.beginStep (0 : ℚ) 1, .advance .forwardEuler,
      .produceForce 1, .record .computeForce, .advance .midpoint], call.IsCoordinated := by
    simp [Call.IsCoordinated]
  exact ⟨coordinated, by decide +kernel, by decide +kernel,
    consistent_run_initial (1 / 1000) _ coordinated⟩

end ImmersedBody.StepProtocol
