import ImmersedBody.Proofs.TimeStep.Consistency

/-!
# The hand-off of the constraint force in the protocol

A constraint force becomes pending when it is set and stops being so when it is
consumed.  No other operation within a step touches the hand-off, and a step
does not close while a force is pending.
-/

namespace ImmersedBody.StepProtocol

variable {α : Type}

/-- A consistent state in which the same force is pending, in or out of a step as before. -/
structure SameHandoff (protocol after : StepProtocol α) : Prop where
  consistent : after.Consistent
  pending_eq : after.forcePending = protocol.forcePending
  inStep_eq : after.phase.inStep = protocol.phase.inStep

variable {protocol : StepProtocol α}

theorem Consistent.sameHandoff (consistent : protocol.Consistent) : protocol.SameHandoff protocol :=
  ⟨consistent, rfl, rfl⟩

theorem sameHandoff_of_consumeRequest (consistent : protocol.Consistent)
    {outcome : StepOutcome α Bool} (consumed : protocol.consumeRequest = .ok outcome) :
    protocol.SameHandoff outcome.protocol := by
  have kept := consistent.consumeRequest consumed
  rcases consumeRequest_eq_ok_iff.mp consumed with ⟨next, window, accepted, -, equal⟩
  rcases Phase.inStep_of_after accepted nofun nofun with ⟨before, after⟩
  cases requested : protocol.velocityRequested with
  | true =>
      rw [requested, if_pos rfl] at equal
      rw [equal] at kept ⊢
      exact ⟨kept, rfl, after.trans before.symm⟩
  | false =>
      rw [requested, if_neg Bool.false_ne_true] at equal
      rw [equal]
      exact consistent.sameHandoff

theorem sameHandoff_of_advance {rule : AdvanceRule} {outcome : StepOutcome α (StepWindow α)}
    (advanced : protocol.advance rule = .ok outcome) : protocol.SameHandoff outcome.protocol := by
  have kept := consistent_of_advance advanced
  rcases advance_eq_ok_iff.mp advanced with ⟨next, window, accepted, -, -, rfl⟩
  rcases Phase.inStep_of_after accepted nofun nofun with ⟨before, after⟩
  exact ⟨kept, rfl, after.trans before.symm⟩

theorem sameHandoff_of_record {operation : Operation}
    (coordinated : operation = .computeForce ∨ operation = .setVelocity)
    {outcome : StepOutcome α (StepWindow α)} (recorded : protocol.record operation = .ok outcome) :
    protocol.SameHandoff outcome.protocol := by
  have kept := consistent_of_record coordinated recorded
  rcases record_eq_ok_iff.mp recorded with ⟨next, window, accepted, -, rfl⟩
  have notOpening : operation ≠ .preprocess := by
    rcases coordinated with rfl | rfl <;> exact nofun
  have notClosing : operation ≠ .postprocess := by
    rcases coordinated with rfl | rfl <;> exact nofun
  rcases Phase.inStep_of_after accepted notOpening notClosing with ⟨before, after⟩
  exact ⟨kept, rfl, after.trans before.symm⟩

/-- Whatever a check lets pass can be recorded. -/
theorem exists_record_of_check {operation : Operation} {window : StepWindow α}
    (checked : protocol.check operation = .ok window) :
    ∃ outcome, protocol.record operation = .ok outcome := by
  rcases check_eq_ok_iff.mp checked with ⟨next, accepted, opened⟩
  exact ⟨_, record_eq_ok_iff.mpr ⟨next, window, accepted, opened, rfl⟩⟩

section

variable [Scalar α]

theorem sameHandoff_of_requestInterpolation (consistent : protocol.Consistent) {time : α}
    {outcome : StepOutcome α Unit} (requested : protocol.requestInterpolation time = .ok outcome) :
    protocol.SameHandoff outcome.protocol := by
  have kept := consistent.requestInterpolation requested
  rcases requestInterpolation_eq_ok_iff.mp requested with ⟨window, -, level, -, -, rfl⟩
  exact ⟨kept, rfl, rfl⟩

/-- Whatever a check lets pass can be set, and then it is pending for the first time. -/
theorem produceForce_of_checkForce {time : α} {level : TimeLevel}
    (checked : protocol.checkForce time = .ok level) :
    ∃ outcome, protocol.produceForce time = .ok outcome ∧ outcome.protocol.Consistent ∧
      protocol.forcePending = false ∧ outcome.protocol.forcePending = true ∧
      protocol.phase.inStep = true ∧ outcome.protocol.phase.inStep = true := by
  rcases checkForce_eq_ok_iff.mp checked with ⟨window, ⟨next, accepted, opened⟩, -, fresh⟩
  rcases Phase.inStep_of_after accepted nofun nofun with ⟨before, after⟩
  have produced := produceForce_eq_ok_iff.mpr ⟨level, checked, next, window, accepted, opened, rfl⟩
  exact ⟨_, produced, consistent_of_produceForce produced, by simpa using fresh, rfl, before, after⟩

end

/-- Consuming yields whether a force was pending; afterwards none is. -/
theorem of_consumeForce (consistent : protocol.Consistent) {outcome : StepOutcome α Bool}
    (consumed : protocol.consumeForce = .ok outcome) :
    outcome.value = protocol.forcePending ∧ outcome.protocol.Consistent ∧
      outcome.protocol.forcePending = false ∧
      outcome.protocol.phase.inStep = protocol.phase.inStep := by
  have kept := consistent.consumeForce consumed
  rcases consumeForce_eq_ok_iff.mp consumed with
    ⟨pending, next, window, accepted, -, rfl⟩ | ⟨pending, window, -, rfl⟩
  · rcases Phase.inStep_of_after accepted nofun nofun with ⟨before, after⟩
    exact ⟨pending.symm, kept, rfl, after.trans before.symm⟩
  · exact ⟨pending.symm, kept, pending, rfl⟩

/-- A step opens outside of a step, without a pending force. -/
theorem of_beginStep [Scalar α] {current new : α} {outcome : StepOutcome α (StepWindow α)}
    (begun : protocol.beginStep current new = .ok outcome) :
    protocol.phase.inStep = false ∧ outcome.protocol.Consistent ∧
      outcome.protocol.forcePending = false ∧ outcome.protocol.phase.inStep = true := by
  have kept := consistent_of_beginStep begun
  rcases beginStep_eq_ok_iff.mp begun with ⟨next, accepted, rfl⟩
  rcases Phase.after_preprocess_eq_ok_iff.mp accepted with ⟨outside, rfl⟩
  exact ⟨outside, kept, rfl, rfl⟩

/-- A step closes only when no force is pending. -/
theorem of_endStep {outcome : StepOutcome α (StepWindow α)}
    (ended : protocol.endStep = .ok outcome) :
    protocol.phase.inStep = true ∧ protocol.forcePending = false ∧
      outcome.protocol.Consistent ∧ outcome.protocol.forcePending = false ∧
      outcome.protocol.phase.inStep = false := by
  have kept := consistent_of_endStep ended
  rcases endStep_eq_ok_iff.mp ended with ⟨next, window, accepted, -, settled, rfl⟩
  rcases Phase.after_postprocess_eq_ok_iff.mp accepted with ⟨closable, rfl⟩
  refine ⟨?_, by simpa using settled, kept, rfl, rfl⟩
  rcases closable with phase | phase | phase | phase <;> rw [phase] <;> rfl

end ImmersedBody.StepProtocol
