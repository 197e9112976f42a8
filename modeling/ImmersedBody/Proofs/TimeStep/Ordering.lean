import ImmersedBody.Proofs.Rational
import ImmersedBody.Proofs.TimeStep.History

/-!
# The order of position updates

Positions are updated twice in a step: the half-time state is predicted from the
current velocities, and the new positions follow from the half-time velocities.
The prediction takes place at most once, before the constraint solve; the update
needs a prediction of the same step, and may be repeated.

The phase alone does not tell what has happened, since phases are revisited, and
neither does the flag that a prediction sets.  `Ordered` says how both of them
are related to what has been called within the step.
-/

namespace ImmersedBody.StepProtocol

variable {α : Type}

/-- The half-time state is predicted. -/
def Entry.predicts (entry : Entry α) : Bool :=
  match entry.call with
  | .advance .forwardEuler => true
  | _ => false

/-- The new positions are updated. -/
def Entry.updates (entry : Entry α) : Bool :=
  match entry.call with
  | .advance .midpoint => true
  | _ => false

/-- A constraint force is set. -/
def Entry.setsForce (entry : Entry α) : Bool :=
  match entry.call with
  | .produceForce _ => true
  | _ => false

theorem Entry.call_of_predicts {entry : Entry α} (predicts : entry.predicts = true) :
    entry.call = .advance .forwardEuler := by
  unfold Entry.predicts at predicts
  split at predicts
  · assumption
  · cases predicts

theorem Entry.call_of_updates {entry : Entry α} (updates : entry.updates = true) :
    entry.call = .advance .midpoint := by
  unfold Entry.updates at updates
  split at updates
  · assumption
  · cases updates

/-- The update, and what belongs to the constraint solve.  To find no force to spread does not. -/
def Entry.isLate (entry : Entry α) : Bool :=
  match entry.call, entry.answer with
  | .produceForce _, _ | .advance .midpoint, _ | .consumeForce, .consumed true
  | .record .computeForce, _ | .record .setVelocity, _ => true
  | _, _ => false

/-- Positions are updated in order in all steps of a history. -/
structure UpdatesInOrder (events : List (Entry α)) : Prop where
  /-- At any time within a step, there has been at most one prediction in it. -/
  predictsOnce : ∀ past future step, events = past ++ future → underway past = some step →
    step.countP Entry.predicts ≤ 1
  /-- A prediction comes before any update and before the constraint solve of its step. -/
  predictsFirst : ∀ past prediction future, events = past ++ prediction :: future →
    prediction.predicts = true →
    ∃ step, underway past = some step ∧ ∀ entry ∈ step, entry.isLate = false
  /-- An update needs a prediction of its step, and never follows directly on setting a force. -/
  updatesPredicted : ∀ past update future, events = past ++ update :: future →
    update.updates = true →
    update.phase ≠ .forceSet ∧
      ∃ step, underway past = some step ∧ ∃ entry ∈ step, entry.predicts = true
  /-- A step is closed only if there was a prediction in it or a force was set. -/
  closesStarted : ∀ past closing future, events = past ++ closing :: future →
    closing.call = .endStep →
    ∃ step, underway past = some step ∧
      ∃ entry ∈ step, entry.predicts = true ∨ entry.setsForce = true

/-! ## What has been called within a step -/

/-- What phase and prediction tell about the calls within the step that is underway. -/
structure Ordered (protocol : StepProtocol α) (step : List (Entry α)) : Prop where
  once : step.countP Entry.predicts ≤ 1
  early : protocol.phase.predicting = true →
    ∀ entry ∈ step, entry.predicts = false ∧ entry.isLate = false
  predicted : protocol.predicted = true → ∃ entry ∈ step, entry.predicts = true
  started : protocol.phase.predicting = false →
    ∃ entry ∈ step, entry.predicts = true ∨ entry.setsForce = true

namespace Ordered

variable {protocol after : StepProtocol α} {step : List (Entry α)} {entry : Entry α}

theorem opened (predicting : protocol.phase.predicting = true)
    (unpredicted : protocol.predicted = false) : Ordered protocol [] where
  once := Nat.zero_le 1
  early := by simp
  predicted := by simp [unpredicted]
  started := by simp [predicting]

/-- Every call but a prediction keeps the order, if it does not lead back to the prediction stage. -/
theorem append (ordered : Ordered protocol step) (other : entry.predicts = false)
    (same : after.predicted = protocol.predicted)
    (early : after.phase.predicting = true →
      protocol.phase.predicting = true ∧ entry.isLate = false)
    (started : after.phase.predicting = false →
      protocol.phase.predicting = false ∨ protocol.predicted = true ∨ entry.setsForce = true) :
    Ordered after (step ++ [entry]) where
  once := by
    simpa [List.countP_append, other] using ordered.once
  early := by
    intro predicting
    rcases early predicting with ⟨before, idle⟩
    intro member found
    rcases List.mem_append.mp found with earlier | last
    · exact ordered.early before member earlier
    · rw [List.mem_singleton.mp last]
      exact ⟨other, idle⟩
  predicted := by
    intro predicted
    rcases ordered.predicted (same ▸ predicted) with ⟨prediction, member, predicts⟩
    exact ⟨prediction, List.mem_append_left _ member, predicts⟩
  started := by
    intro left
    rcases started left with before | predicted | sets
    · rcases ordered.started before with ⟨first, member, starts⟩
      exact ⟨first, List.mem_append_left _ member, starts⟩
    · rcases ordered.predicted predicted with ⟨prediction, member, predicts⟩
      exact ⟨prediction, List.mem_append_left _ member, Or.inl predicts⟩
    · exact ⟨entry, List.mem_concat_self, Or.inr sets⟩

/-- A call that belongs behind the prediction stage keeps the order, if this stage has been left. -/
theorem leave (ordered : Ordered protocol step) (other : entry.predicts = false)
    (same : after.predicted = protocol.predicted) (left : after.phase.predicting = false)
    (started : protocol.phase.predicting = false ∨ protocol.predicted = true ∨
      entry.setsForce = true) : Ordered after (step ++ [entry]) :=
  ordered.append other same (by simp [left]) fun _ => started

/-- The first prediction of a step. -/
theorem predict (ordered : Ordered protocol step) (predicting : protocol.phase.predicting = true)
    (predicts : entry.predicts = true) (left : after.phase.predicting = false) :
    Ordered after (step ++ [entry]) where
  once := by
    have none : step.countP Entry.predicts = 0 := by
      rw [List.countP_eq_zero]
      intro member found
      simp [(ordered.early predicting member found).1]
    simp [List.countP_append, none, predicts]
  early := by simp [left]
  predicted := fun _ => ⟨entry, List.mem_concat_self, predicts⟩
  started := fun _ => ⟨entry, List.mem_concat_self, Or.inl predicts⟩

/-- Every call of a coordinator within a step keeps the order. -/
theorem call {call : Call α} {answer : Answer α} (ordered : Ordered protocol step)
    (coordinated : call.IsCoordinated) (inner : ¬ call.IsBracket)
    (effect : Effect protocol call answer after) :
    Ordered after (step ++ [⟨protocol.phase, call, answer⟩]) := by
  cases effect with
  | begun outside | ended opened =>
      exact absurd trivial inner
  | requested opened | interpolationSkipped opened | spreadingSkipped opened =>
      exact ordered.append rfl rfl (fun predicting => ⟨predicting, rfl⟩) Or.inl
  | inspected inspects opened =>
      cases call <;> cases inspects <;>
        exact ordered.append rfl rfl (fun predicting => ⟨predicting, rfl⟩) Or.inl
  | interpolated opened =>
      -- the phase may change, but it stays in the prediction stage or out of it
      cases predicting : protocol.phase.predicting with
      | true =>
          exact ordered.append rfl rfl (fun _ => ⟨predicting, rfl⟩) (by simp [Phase.predicting])
      | false =>
          exact ordered.append rfl rfl (by simp [predicting]) (fun _ => Or.inl predicting)
  | produced opened =>
      exact ordered.leave rfl rfl rfl (Or.inr (Or.inr rfl))
  | spread opened started pending =>
      exact ordered.leave rfl rfl rfl (Or.inl (Phase.predicting_of_started started))
  | predicted opened predicting =>
      exact ordered.predict predicting rfl rfl
  | updated opened inStep left predicted =>
      exact ordered.leave rfl rfl rfl (Or.inr (Or.inl predicted))
  | recorded opened accepted =>
      rcases coordinated with rfl | rfl
      · rcases Phase.after_computeForce_eq_ok_iff.mp accepted with ⟨solving, rfl⟩
        have started := Phase.predicting_of_started (Or.inl solving)
        exact ordered.leave rfl rfl rfl (Or.inl started)
      · rcases Phase.after_setVelocity_eq_ok_iff.mp accepted with ⟨started, rfl⟩
        exact ordered.leave rfl rfl rfl (Or.inl (Phase.predicting_of_started started))

end Ordered

section

variable [Scalar α]

/-- At any time within a step, its calls are in order. -/
theorem Leads.ordered {start protocol : StepProtocol α} {past step : List (Entry α)}
    (leads : Leads start past protocol) (coordinated : ∀ entry ∈ past, entry.call.IsCoordinated)
    (found : underway past = some step) : Ordered protocol step := by
  refine leads.step_induction Call.IsCoordinated Ordered ?_ ?_ coordinated found
  · intro before after current new answer effect
    cases effect with
    | begun outside =>
        exact .opened rfl rfl
    | inspected inspects =>
        cases inspects
  · intro before after step call answer ordered allowed inner effect
    exact ordered.call allowed inner effect

/-- Over whole runs, a coordinator updates positions in order. -/
theorem positions_updated_in_order (tolerance : α) (calls : List (Call α))
    (coordinated : ∀ call ∈ calls, call.IsCoordinated) :
    UpdatesInOrder ((initial tolerance).history calls) := by
  have each {past future : List (Entry α)}
      (split : (initial tolerance).history calls = past ++ future) :
      ∀ entry ∈ past, entry.call.IsCoordinated := by
    intro entry member
    exact coordinated _ (call_mem_of_mem_history (split ▸ List.mem_append_left future member))
  constructor
  · intro past future step split found
    rcases exists_leads split with ⟨before, leads⟩
    exact (leads.ordered (each split) found).once
  · intro past prediction future split predicts
    have call := Entry.call_of_predicts predicts
    rcases exists_within split (by simp [call]) with
      ⟨before, after, step, leads, found, -, effect⟩
    rw [call] at effect
    have ordered := leads.ordered (each split) found
    have early := ordered.early effect.predicting_of_forwardEuler
    exact ⟨step, found, fun entry member => (early entry member).2⟩
  · intro past update future split updates
    have call := Entry.call_of_updates updates
    rcases exists_within split (by simp [call]) with
      ⟨before, after, step, leads, found, same, effect⟩
    rw [call] at effect
    rcases effect.predicted_of_midpoint with ⟨left, predicted⟩
    exact ⟨same ▸ left, step, found, (leads.ordered (each split) found).predicted predicted⟩
  · intro past closing future split closes
    rcases exists_within split (by simp [closes]) with
      ⟨before, after, step, leads, found, -, effect⟩
    rw [closes] at effect
    have ordered := leads.ordered (each split) found
    exact ⟨step, found, ordered.started effect.settled_of_endStep.1⟩

end

/-- A step with all operations of the solve, a repeated update, and a force that is spread late. -/
theorem updates_in_order_around_solve :
    let calls : List (Call ℚ) :=
      [.beginStep 0 1, .requestInterpolation (1 / 2), .consumeRequest, .consumeForce,
        .advance .forwardEuler, .produceForce 1, .record .computeForce, .record .setVelocity,
        .advance .midpoint, .consumeForce, .advance .midpoint, .endStep, .beginStep 1 2]
    (∀ call ∈ calls, call.IsCoordinated) ∧
      ((initial (1 / 1000)).history calls).length = calls.length ∧
      UpdatesInOrder ((initial (1 / 1000)).history calls) := by
  have coordinated : ∀ call ∈ [Call.beginStep (0 : ℚ) 1, .requestInterpolation (1 / 2),
      .consumeRequest, .consumeForce, .advance .forwardEuler, .produceForce 1,
      .record .computeForce, .record .setVelocity, .advance .midpoint, .consumeForce,
      .advance .midpoint, .endStep, .beginStep 1 2], call.IsCoordinated := by
    simp [Call.IsCoordinated]
  exact ⟨coordinated, by decide +kernel, positions_updated_in_order (1 / 1000) _ coordinated⟩

end ImmersedBody.StepProtocol
