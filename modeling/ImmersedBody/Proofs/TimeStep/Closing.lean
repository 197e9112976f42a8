import ImmersedBody.Proofs.TimeStep.Consistency
import ImmersedBody.Proofs.TimeStep.History

/-!
# A step can always be closed

The step protocol has no dead ends: whatever a coordinator has called within a
step, at most one more call is needed before the step can be closed.  A pending
force has to be spread, and positions have to be advanced if neither this nor a
constraint solve has taken place.

That nothing stands in the way of either call is consistency: a pending force
can be spread, and in the prediction stage no force is pending.
-/

namespace ImmersedBody.StepProtocol

variable {α : Type} {protocol : StepProtocol α}

/--
The step can be closed after at most one more call, which spreads the force or predicts the
half-time state.
-/
def CanClose [Scalar α] (protocol : StepProtocol α) : Prop :=
  ∃ detour after, (detour.map Entry.call = [] ∨ detour.map Entry.call = [.consumeForce] ∨
      detour.map Entry.call = [.advance .forwardEuler]) ∧
    Leads protocol detour after ∧ ∃ outcome, after.endStep = .ok outcome

theorem exists_endStep {window : StepWindow α} (opened : protocol.window = some window)
    (closable : protocol.phase.after .postprocess = .ok .postprocessed)
    (settled : protocol.forcePending = false) : ∃ outcome, protocol.endStep = .ok outcome :=
  ⟨_, endStep_eq_ok_iff.mpr ⟨_, window, closable, opened, by simp [settled], rfl⟩⟩

namespace Consistent

theorem exists_window (consistent : protocol.Consistent) (inStep : protocol.phase.inStep = true) :
    ∃ window, protocol.window = some window :=
  Option.isSome_iff_exists.mp (consistent.window_isSome_iff.mpr inStep)

/-- A pending force can be spread. -/
theorem consumeForce_of_pending (consistent : protocol.Consistent)
    (pending : protocol.forcePending = true) :
    protocol.consumeForce =
      .ok ⟨true, [], { protocol with phase := .forceSpread, forcePending := false }⟩ := by
  rcases consistent.spreadable pending with ⟨next, spreadable⟩
  have accepted := Phase.transition_eq_ok_iff.mp spreadable
  rcases Phase.inStep_of_after accepted nofun nofun with ⟨inStep, -⟩
  rcases consistent.exists_window inStep with ⟨window, opened⟩
  rcases Phase.after_spreadForce_eq_ok_iff.mp accepted with ⟨-, rfl⟩
  exact consumeForce_eq_ok_iff.mpr (Or.inl ⟨pending, _, window, accepted, opened, rfl⟩)

/-- After the prediction stage only a pending force keeps a step from being closed. -/
theorem closable_of_settled (consistent : protocol.Consistent)
    (inStep : protocol.phase.inStep = true) (left : protocol.phase.predicting = false)
    (settled : protocol.forcePending = false) :
    protocol.phase.after .postprocess = .ok .postprocessed := by
  have notSet : protocol.phase ≠ .forceSet := fun set => by
    rw [consistent.forceSet set] at settled
    cases settled
  revert inStep left notSet
  cases protocol.phase <;> simp [Phase.inStep, Phase.predicting, Phase.after]

variable [Scalar α]

/-- The calls of a coordinator keep the state consistent. -/
theorem run (consistent : protocol.Consistent) {calls : List (Call α)}
    (coordinated : ∀ call ∈ calls, call.IsCoordinated) : (protocol.run calls).Consistent :=
  run_induction (fun call member _ before => before.next (coordinated call member)) consistent

/-- A step that is underway can be closed. -/
theorem canClose (consistent : protocol.Consistent) (inStep : protocol.phase.inStep = true) :
    protocol.CanClose := by
  rcases consistent.exists_window inStep with ⟨window, opened⟩
  cases pending : protocol.forcePending with
  | true =>
      have performed : protocol.perform .consumeForce = .ok (.consumed true,
          { protocol with phase := .forceSpread, forcePending := false }) := by
        rw [StepProtocol.perform, consistent.consumeForce_of_pending pending]
        rfl
      exact ⟨_, _, Or.inr (Or.inl rfl), Leads.nothing.call performed,
        exists_endStep opened rfl rfl⟩
  | false =>
      cases predicting : protocol.phase.predicting with
      | true =>
          have accepted := Phase.after_forwardEuler_eq_ok_iff.mpr ⟨predicting, rfl⟩
          have advanced := advance_eq_ok_iff.mpr ⟨_, window, accepted, opened, by simp, rfl⟩
          have performed : protocol.perform (.advance .forwardEuler) = .ok (.window window,
              { protocol with
                phase := .positionAdvanced,
                predicted := protocol.predicted || AdvanceRule.forwardEuler == .forwardEuler }) := by
            rw [StepProtocol.perform, advanced]
            rfl
          exact ⟨_, _, Or.inr (Or.inr rfl), Leads.nothing.call performed,
            exists_endStep opened rfl pending⟩
      | false =>
          have closable := consistent.closable_of_settled inStep predicting pending
          exact ⟨[], protocol, Or.inl rfl, .nothing, exists_endStep opened closable pending⟩

end Consistent

variable [Scalar α]

/-- Whenever a coordinator is within a step, the step can be closed, and a force can be spread. -/
theorem step_can_be_closed (tolerance : α) (calls : List (Call α))
    (coordinated : ∀ call ∈ calls, call.IsCoordinated)
    (inStep : ((initial tolerance).run calls).phase.inStep = true) :
    let protocol := (initial tolerance).run calls
    protocol.CanClose ∧ (protocol.forcePending = true →
      ∃ outcome, protocol.consumeForce = .ok outcome ∧ outcome.value = true) := by
  have consistent := (consistent_initial tolerance).run coordinated
  refine ⟨consistent.canClose inStep, ?_⟩
  intro pending
  exact ⟨_, consistent.consumeForce_of_pending pending, rfl⟩

/-- A force that has just been set can be spread, and then the step can be closed. -/
theorem step_can_be_closed_after_setting :
    let calls : List (Call ℚ) := [.beginStep 1 0, .requestInterpolation (1 / 2), .produceForce 0]
    let protocol := (initial (1 / 1000)).run calls
    (∀ call ∈ calls, call.IsCoordinated) ∧ protocol.phase = .forceSet ∧
      protocol.endStep.toOption = none ∧ protocol.CanClose ∧ protocol.forcePending = true ∧
      ∃ outcome, protocol.consumeForce = .ok outcome ∧ outcome.value = true := by
  have coordinated : ∀ call ∈ [Call.beginStep (1 : ℚ) 0, .requestInterpolation (1 / 2),
      .produceForce 0], call.IsCoordinated := by
    simp [Call.IsCoordinated]
  have closable := step_can_be_closed (1 / 1000 : ℚ) _ coordinated (by decide +kernel)
  have pending : ((initial (1 / 1000 : ℚ)).run [.beginStep 1 0, .requestInterpolation (1 / 2),
      .produceForce 0]).forcePending = true := by
    decide +kernel
  exact ⟨coordinated, by decide +kernel, by decide +kernel, closable.1, pending,
    closable.2 pending⟩

end ImmersedBody.StepProtocol
