import ImmersedBody.Proofs.TimeStep.Runs

/-!
# The effects of the calls of the step protocol

`Effect` lists what an accepted call of the protocol does: in which states the
call is accepted, what it answers, and which state it leads to.  Only what is
required of its times is left out.  What holds along a run is proved by cases on
the effects of its calls.
-/

namespace ImmersedBody

/-! ## Stages of a step -/

namespace Phase

variable {phase : Phase}

theorem inStep_of_predicting (predicting : phase.predicting = true) : phase.inStep = true := by
  revert predicting
  cases phase <;> simp [Phase.predicting, inStep]

theorem inStep_of_started (started : phase.solving = true ∨ phase = .positionAdvanced) :
    phase.inStep = true := by
  revert started
  cases phase <;> simp [solving, inStep]

/-- After the positions have been advanced or a force has been set, the prediction stage is over. -/
theorem predicting_of_started (started : phase.solving = true ∨ phase = .positionAdvanced) :
    phase.predicting = false := by
  revert started
  cases phase <;> simp [solving, predicting]

end Phase

namespace StepProtocol

/-! ## Calls and their effects -/

variable {α : Type}

/-- The call looks at the state and leaves it as it is. -/
def Call.Inspects : Call α → Prop
  | .checkForce _ | .queryVelocity _ | .queryForce _ | .check _ => True
  | _ => False

/-- What an accepted call requires of the state, answers, and leads to. -/
inductive Effect (protocol : StepProtocol α) : Call α → Answer α → StepProtocol α → Prop where
  /-- A step is opened. -/
  | begun {current new : α} {window : StepWindow α} (outside : protocol.phase.inStep = false) :
      Effect protocol (.beginStep current new) (.window window)
        { protocol.cleared with phase := .preprocessed, window := some window }
  /-- The step is closed. -/
  | ended {window : StepWindow α} (opened : protocol.window = some window)
      (closable : protocol.phase = .positionAdvanced ∨ protocol.phase = .forceConsumed ∨
        protocol.phase = .velocitySet ∨ protocol.phase = .forceSpread)
      (settled : protocol.forcePending = false) :
      Effect protocol .endStep (.window window)
        { protocol.cleared with phase := .postprocessed, window := none }
  /-- An interpolation is requested. -/
  | requested {time : α} {window : StepWindow α} (opened : protocol.window = some window)
      (inStep : protocol.phase.inStep = true) (fresh : protocol.velocityRequested = false) :
      Effect protocol (.requestInterpolation time) .done
        { protocol with velocityRequested := true }
  /-- A requested interpolation takes place. -/
  | interpolated {window : StepWindow α} (opened : protocol.window = some window)
      (inStep : protocol.phase.inStep = true) (requested : protocol.velocityRequested = true) :
      Effect protocol .consumeRequest (.consumed true)
        { protocol with
          phase := if protocol.phase.predicting then .velocityInterpolated else protocol.phase,
          velocityRequested := false }
  /-- No interpolation was requested. -/
  | interpolationSkipped {window : StepWindow α} (opened : protocol.window = some window)
      (unrequested : protocol.velocityRequested = false) :
      Effect protocol .consumeRequest (.consumed false) protocol
  /-- A force is set. -/
  | produced {time : α} {level : TimeLevel} {window : StepWindow α}
      (opened : protocol.window = some window) (inStep : protocol.phase.inStep = true)
      (fresh : protocol.forcePending = false) :
      Effect protocol (.produceForce time) (.level (some level))
        { protocol with phase := .forceSet, forcePending := true }
  /-- The pending force is spread. -/
  | spread {window : StepWindow α} (opened : protocol.window = some window)
      (started : protocol.phase.solving = true ∨ protocol.phase = .positionAdvanced)
      (pending : protocol.forcePending = true) :
      Effect protocol .consumeForce (.consumed true)
        { protocol with phase := .forceSpread, forcePending := false }
  /-- No force is pending. -/
  | spreadingSkipped {window : StepWindow α} (opened : protocol.window = some window)
      (settled : protocol.forcePending = false) :
      Effect protocol .consumeForce (.consumed false) protocol
  /-- The half-time state is predicted. -/
  | predicted {window : StepWindow α} (opened : protocol.window = some window)
      (predicting : protocol.phase.predicting = true) :
      Effect protocol (.advance .forwardEuler) (.window window)
        { protocol with phase := .positionAdvanced, predicted := true }
  /-- The new positions are updated. -/
  | updated {window : StepWindow α} (opened : protocol.window = some window)
      (inStep : protocol.phase.inStep = true) (left : protocol.phase ≠ .forceSet)
      (predicted : protocol.predicted = true) :
      Effect protocol (.advance .midpoint) (.window window)
        { protocol with phase := .positionAdvanced }
  /-- Nothing changes. -/
  | inspected {call : Call α} {answer : Answer α} {window : StepWindow α}
      (inspects : call.Inspects) (opened : protocol.window = some window) :
      Effect protocol call answer protocol
  /-- An operation is recorded that has no conditions but its place in the order. -/
  | recorded {operation : Operation} {next : Phase} {window : StepWindow α}
      (opened : protocol.window = some window)
      (accepted : protocol.phase.after operation = .ok next) :
      Effect protocol (.record operation) (.window window) { protocol with phase := next }

/-! ## The effect of an accepted call -/

section

variable {protocol : StepProtocol α}

theorem effect_of_endStep {outcome : StepOutcome α (StepWindow α)}
    (ended : protocol.endStep = .ok outcome) :
    Effect protocol .endStep (.window outcome.value) outcome.protocol := by
  rcases endStep_eq_ok_iff.mp ended with ⟨next, window, accepted, opened, settled, rfl⟩
  rcases Phase.after_postprocess_eq_ok_iff.mp accepted with ⟨closable, rfl⟩
  exact .ended opened closable (by simpa using settled)

theorem effect_of_consumeRequest {outcome : StepOutcome α Bool}
    (consumed : protocol.consumeRequest = .ok outcome) :
    Effect protocol .consumeRequest (.consumed outcome.value) outcome.protocol := by
  rcases consumeRequest_eq_ok_iff.mp consumed with ⟨next, window, accepted, opened, equal⟩
  rcases Phase.after_interpolateVelocity_eq_ok_iff.mp accepted with ⟨inStep, rfl⟩
  cases requested : protocol.velocityRequested with
  | true =>
      rw [requested, if_pos rfl] at equal
      subst equal
      exact .interpolated opened inStep requested
  | false =>
      rw [requested, if_neg Bool.false_ne_true] at equal
      subst equal
      exact .interpolationSkipped opened requested

theorem effect_of_consumeForce {outcome : StepOutcome α Bool}
    (consumed : protocol.consumeForce = .ok outcome) :
    Effect protocol .consumeForce (.consumed outcome.value) outcome.protocol := by
  rcases consumeForce_eq_ok_iff.mp consumed with
    ⟨pending, next, window, accepted, opened, rfl⟩ | ⟨settled, window, opened, rfl⟩
  · rcases Phase.after_spreadForce_eq_ok_iff.mp accepted with ⟨started, rfl⟩
    exact .spread opened started pending
  · exact .spreadingSkipped opened settled

theorem effect_of_advance {rule : AdvanceRule} {outcome : StepOutcome α (StepWindow α)}
    (advanced : protocol.advance rule = .ok outcome) :
    Effect protocol (.advance rule) (.window outcome.value) outcome.protocol := by
  rcases advance_eq_ok_iff.mp advanced with ⟨next, window, accepted, opened, licensed, rfl⟩
  cases rule with
  | forwardEuler =>
      rcases Phase.after_forwardEuler_eq_ok_iff.mp accepted with ⟨predicting, rfl⟩
      have predicted : (protocol.predicted || AdvanceRule.forwardEuler == .forwardEuler) = true :=
        Bool.or_true _
      rw [predicted]
      exact .predicted opened predicting
  | midpoint =>
      rcases Phase.after_midpoint_eq_ok_iff.mp accepted with ⟨⟨inStep, left⟩, rfl⟩
      have unchanged : (protocol.predicted || AdvanceRule.midpoint == .forwardEuler) =
          protocol.predicted := Bool.or_false _
      rw [unchanged]
      exact .updated opened inStep left (by simpa using licensed)
  | trapezoidal =>
      exact absurd accepted Phase.after_trapezoidal_ne_ok

theorem effect_of_record {operation : Operation} {outcome : StepOutcome α (StepWindow α)}
    (recorded : protocol.record operation = .ok outcome) :
    Effect protocol (.record operation) (.window outcome.value) outcome.protocol := by
  rcases record_eq_ok_iff.mp recorded with ⟨next, window, accepted, opened, rfl⟩
  exact .recorded opened accepted

/-- What begins with a check needs a window. -/
theorem opened_of_check {β : Type} {operation : Operation} {value : β}
    {rest : StepWindow α → Except (Violation α) β}
    (found : (protocol.check operation >>= rest) = .ok value) :
    ∃ window, protocol.window = some window := by
  rcases bind_eq_ok_iff.mp found with ⟨window, checked, -⟩
  rcases check_eq_ok_iff.mp checked with ⟨-, -, opened⟩
  exact ⟨window, opened⟩

variable [Scalar α]

theorem effect_of_beginStep {current new : α} {outcome : StepOutcome α (StepWindow α)}
    (begun : protocol.beginStep current new = .ok outcome) :
    Effect protocol (.beginStep current new) (.window outcome.value) outcome.protocol := by
  rcases beginStep_eq_ok_iff.mp begun with ⟨next, accepted, rfl⟩
  rcases Phase.after_preprocess_eq_ok_iff.mp accepted with ⟨outside, rfl⟩
  exact .begun outside

theorem effect_of_requestInterpolation {time : α} {outcome : StepOutcome α Unit}
    (requested : protocol.requestInterpolation time = .ok outcome) :
    Effect protocol (.requestInterpolation time) .done outcome.protocol := by
  rcases requestInterpolation_eq_ok_iff.mp requested with
    ⟨window, ⟨next, accepted, opened⟩, level, -, fresh, rfl⟩
  rcases Phase.after_requestInterpolation_eq_ok_iff.mp accepted with ⟨inStep, -⟩
  exact .requested opened inStep (by simpa using fresh)

theorem effect_of_produceForce {time : α} {outcome : StepOutcome α TimeLevel}
    (produced : protocol.produceForce time = .ok outcome) :
    Effect protocol (.produceForce time) (.level (some outcome.value)) outcome.protocol := by
  rcases produceForce_eq_ok_iff.mp produced with
    ⟨level, checked, next, window, accepted, opened, rfl⟩
  rcases checkForce_eq_ok_iff.mp checked with ⟨-, -, -, fresh⟩
  rcases Phase.after_setForce_eq_ok_iff.mp accepted with ⟨inStep, rfl⟩
  exact .produced opened inStep (by simpa using fresh)

/-- Every accepted call has one of the effects that are listed. -/
theorem effect_of_perform {call : Call α} {answer : Answer α} {after : StepProtocol α}
    (performed : protocol.perform call = .ok (answer, after)) :
    Effect protocol call answer after := by
  cases call with
  | beginStep current new =>
      rcases map_eq_ok_iff.mp performed with ⟨outcome, begun, equal⟩
      cases equal
      exact effect_of_beginStep begun
  | endStep =>
      rcases map_eq_ok_iff.mp performed with ⟨outcome, ended, equal⟩
      cases equal
      exact effect_of_endStep ended
  | requestInterpolation time =>
      rcases map_eq_ok_iff.mp performed with ⟨outcome, requested, equal⟩
      cases equal
      exact effect_of_requestInterpolation requested
  | consumeRequest =>
      rcases map_eq_ok_iff.mp performed with ⟨outcome, consumed, equal⟩
      cases equal
      exact effect_of_consumeRequest consumed
  | produceForce time =>
      rcases map_eq_ok_iff.mp performed with ⟨outcome, produced, equal⟩
      cases equal
      exact effect_of_produceForce produced
  | consumeForce =>
      rcases map_eq_ok_iff.mp performed with ⟨outcome, consumed, equal⟩
      cases equal
      exact effect_of_consumeForce consumed
  | advance rule =>
      rcases map_eq_ok_iff.mp performed with ⟨outcome, advanced, equal⟩
      cases equal
      exact effect_of_advance advanced
  | record operation =>
      rcases map_eq_ok_iff.mp performed with ⟨outcome, recorded, equal⟩
      cases equal
      exact effect_of_record recorded
  | checkForce time =>
      rcases map_eq_ok_iff.mp performed with ⟨level, checked, equal⟩
      cases equal
      rcases opened_of_check checked with ⟨window, opened⟩
      exact .inspected trivial opened
  | queryVelocity time =>
      rcases map_eq_ok_iff.mp performed with ⟨found, queried, equal⟩
      cases equal
      rcases opened_of_check queried with ⟨window, opened⟩
      exact .inspected trivial opened
  | queryForce time =>
      rcases map_eq_ok_iff.mp performed with ⟨level, queried, equal⟩
      cases equal
      rcases opened_of_check queried with ⟨window, opened⟩
      exact .inspected trivial opened
  | check operation =>
      rcases map_eq_ok_iff.mp performed with ⟨window, checked, equal⟩
      cases equal
      rcases check_eq_ok_iff.mp checked with ⟨-, -, opened⟩
      exact .inspected trivial opened

end

namespace Effect

variable {protocol after : StepProtocol α} {call : Call α} {answer : Answer α}

/-- A step is opened or a window is there already. -/
theorem opens_or_opened (effect : Effect protocol call answer after) :
    (∃ current new, call = .beginStep current new) ∨ protocol.window.isSome = true := by
  cases effect with
  | begun outside =>
      exact Or.inl ⟨_, _, rfl⟩
  | ended opened | requested opened | interpolated opened | interpolationSkipped opened
    | produced opened | spread opened | spreadingSkipped opened | predicted opened
    | updated opened | inspected inspects opened | recorded opened =>
      exact Or.inr (Option.isSome_iff_exists.mpr ⟨_, opened⟩)

/-- The half-time state is predicted in the prediction stage only. -/
theorem predicting_of_forwardEuler
    (effect : Effect protocol (.advance .forwardEuler) answer after) :
    protocol.phase.predicting = true := by
  cases effect with
  | predicted opened predicting =>
      exact predicting
  | inspected inspects =>
      cases inspects

/-- An update needs a prediction, and the force that was set last has to be dealt with. -/
theorem predicted_of_midpoint (effect : Effect protocol (.advance .midpoint) answer after) :
    protocol.phase ≠ .forceSet ∧ protocol.predicted = true := by
  cases effect with
  | updated opened inStep left predicted =>
      exact ⟨left, predicted⟩
  | inspected inspects =>
      cases inspects

/-- A step is closed after the prediction stage, and when no force is pending. -/
theorem settled_of_endStep (effect : Effect protocol .endStep answer after) :
    protocol.phase.predicting = false ∧ protocol.forcePending = false := by
  cases effect with
  | ended opened closable settled =>
      refine ⟨?_, settled⟩
      rcases closable with phase | phase | phase | phase <;> rw [phase] <;> rfl
  | inspected inspects =>
      cases inspects

end Effect

end StepProtocol

end ImmersedBody
