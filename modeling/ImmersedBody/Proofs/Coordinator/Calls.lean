import ImmersedBody.Proofs.Coordinator.ForceOperations
import ImmersedBody.Proofs.Coordinator.Spreading

/-!
# Calls of a coordinator

A `Call` is one operation of a coordinator with its operands.  `Call.serve`
carries it out with a flow, and `runAlone` carries out a sequence of calls on
the only rank.  A call that stops keeps what was done before, and the run goes
on.

`runRecorded` does the same and lists what happens to the constraint forces.
-/

namespace ImmersedBody.Coordinator

open ImmersedBody.Action

variable {α σ : Type} {shape : Shape}

/-- A call of a coordinator. -/
inductive Call (shape : Shape) (α : Type) where
  | prepare
  | listen (listener : Nat)
  | createComposite
  | preprocess (current new : α)
  | postprocess
  | fluidCalls (current new : α) (cycle : Nat)
  | requestInterpolation (time : α)
  | interpolate (time : α)
  | readVelocities (composite : CompositeField α) (time factor : α)
  | advance (rule : AdvanceRule) (current new : α)
  | skipForce (time : α)
  | setForce (composite : CompositeField α) (time factor : α)
  | changeForces (time : α) (change : CompositeField α → CompositeField α)
  | computeForce (part : Nat) (force : NodalField α)
  | setBodyVelocity (part : Nat) (dofs : Vector α shape.dim.rigidSize)
      (composite : CompositeField α)
  | updateVelocity (part : Nat) (dofs : Vector α shape.dim.rigidSize)
  | setVelocity (part : Nat) (velocity : RigidVelocity α)
  | spread (time : α)
  | restartRecord
  | restore (record : RestartRecord α)

/-- The events that a call stands for if it does not stop, apart from calls of the flow. -/
def Call.events : Call shape α → List (ForceEvent α)
  | preprocess _ _ => [.opened]
  | postprocess => [.closed]
  | setForce composite _ factor => [.set composite.parts factor]
  | computeForce part force => [.replaced part force]
  | _ => []

variable [Scalar α]

/-- Carries out a call with a flow. -/
def Call.serve (flow : FlowTransfer α σ) : Call shape α → Action α (Coordinator shape α × σ) Unit
  | prepare => Action.first Coordinator.prepare
  | listen listener => Action.first (modify (·.listen listener))
  | createComposite => do
      let (c, _) ← get
      let _ ← Action.collective c.createComposite
  | preprocess current new => Action.first (Coordinator.preprocess current new)
  | postprocess => Action.first Coordinator.postprocess
  | requestInterpolation time => Action.first (Coordinator.requestInterpolation time)
  | interpolate time => Coordinator.interpolate flow time
  | readVelocities composite time factor =>
      Action.of fun (c, state) =>
        match c.readVelocities time factor composite with
        | .ok _ _ => .done (.ok (), c, state)
        | .error stop _ => .done (.error stop, c, state)
  | advance rule current new => Action.first (Coordinator.advance rule current new)
  | skipForce time => Action.first (Coordinator.skipForce time)
  | setForce composite time factor => Action.first (Coordinator.setForce composite time factor)
  | changeForces time change => Action.first do
      let _ ← Coordinator.changeForces time change
  | computeForce part force => Action.first do
      let _ ← Coordinator.computeForce part force
  | setBodyVelocity part dofs composite =>
      Action.of fun (c, state) =>
        ((Coordinator.setBodyVelocity part dofs).on (c, composite)).bind fun (outcome, c, _) =>
          .done (outcome, c, state)
  | updateVelocity part dofs => Action.first (Coordinator.updateVelocity part dofs)
  | setVelocity part velocity => Action.first (Coordinator.setVelocity part velocity)
  | spread time => Coordinator.spread flow time
  | restore record => Action.first (Coordinator.restore record)
  -- What listeners are told and what is stored for a restart is only read.
  | fluidCalls _ _ _ => pure ()
  | restartRecord => pure ()

/-- The coordinator and the flow after a call on the only rank. -/
def serveAlone (flow : FlowTransfer α σ) (state : Coordinator shape α × σ) (call : Call shape α) :
    Coordinator shape α × σ :=
  ((call.serve flow).alone state).2

/-- The coordinator and the flow after a sequence of calls on the only rank. -/
def runAlone (flow : FlowTransfer α σ) (state : Coordinator shape α × σ)
    (calls : List (Call shape α)) : Coordinator shape α × σ :=
  calls.foldl (serveAlone flow) state

/-- A call on the only rank, with the record of what happens to the constraint forces. -/
def serveRecorded (flow : FlowTransfer α σ)
    (state : Coordinator shape α × σ × List (ForceEvent α)) (call : Call shape α) :
    Coordinator shape α × σ × List (ForceEvent α) :=
  match (call.serve flow.recorded).alone state with
  | (.ok _, c, state, events) => (c, state, events ++ call.events)
  | (.error _, after) => after

/-- A sequence of calls on the only rank, with the record. -/
def runRecorded (flow : FlowTransfer α σ)
    (state : Coordinator shape α × σ × List (ForceEvent α)) (calls : List (Call shape α)) :
    Coordinator shape α × σ × List (ForceEvent α) :=
  calls.foldl (serveRecorded flow) state

/-! ## The record -/

/-- The record does not change what a call does. -/
theorem forgets_serve (flow : FlowTransfer α σ) (call : Call shape α) :
    Forgets (call.serve flow.recorded) (call.serve flow) := by
  cases call with
  | spread time =>
      exact forgets_spread
  | interpolate time =>
      exact forgets_interpolate
  | fluidCalls current new cycle =>
      exact forgets_pure ()
  | restartRecord =>
      exact forgets_pure ()
  | createComposite =>
      intro c state events post stopped ends
      simp only [Call.serve, ends_bind, ends_get, ends_collective] at ends ⊢
      exact ends
  | readVelocities composite time factor =>
      intro c state events post stopped ends
      simp only [Call.serve, ends_of] at ends ⊢
      generalize c.readVelocities time factor composite = result at *
      cases result <;> exact ends
  | setBodyVelocity part dofs composite =>
      intro c state events post stopped ends
      simp only [Call.serve, ends_of, Task.alone_bind] at ends ⊢
      generalize ((Coordinator.setBodyVelocity part dofs).on (c, composite)).alone = result at *
      rcases result with ⟨_ | _, after⟩ <;> exact ends
  | prepare | listen listener | preprocess current new | postprocess
  | requestInterpolation time | advance rule current new | skipForce time
  | setForce composite time factor | changeForces time change | computeForce part force
  | updateVelocity part dofs | setVelocity part velocity | restore record =>
      exact forgets_first _

theorem forget_serveRecorded {flow : FlowTransfer α σ}
    {state : Coordinator shape α × σ × List (ForceEvent α)} {call : Call shape α} :
    ((serveRecorded flow state call).1, (serveRecorded flow state call).2.1) =
      serveAlone flow (state.1, state.2.1) call := by
  have same := forgets_serve flow call state.1 state.2.1 state.2.2
    (fun _ after => after = serveAlone flow (state.1, state.2.1) call)
    (fun after => after = serveAlone flow (state.1, state.2.1) call)
    (by
      rw [Ends, serveAlone]
      rcases (call.serve flow).alone (state.1, state.2.1) with ⟨_ | _, after⟩ <;> rfl)
  rw [Ends] at same
  rw [serveRecorded]
  generalize (call.serve flow.recorded).alone state = result at *
  rcases result with ⟨_ | _, c, after, events⟩ <;> exact same

/-- The record does not change a run. -/
theorem forget_runRecorded {flow : FlowTransfer α σ} {calls : List (Call shape α)}
    {state : Coordinator shape α × σ × List (ForceEvent α)} :
    ((runRecorded flow state calls).1, (runRecorded flow state calls).2.1) =
      runAlone flow (state.1, state.2.1) calls := by
  induction calls generalizing state with
  | nil =>
      rfl
  | cons call calls ih =>
      show ((runRecorded flow (serveRecorded flow state call) calls).1, _) =
        runAlone flow (serveAlone flow (state.1, state.2.1) call) calls
      rw [← forget_serveRecorded]
      exact ih

/-! ## Calls that do not touch the constraint forces -/

/-- A call that neither opens nor closes a step, and neither changes nor spreads forces. -/
def Call.IsPlain : Call shape α → Prop
  | preprocess _ _ | postprocess | setForce _ _ _ | computeForce _ _ | spread _ => False
  | _ => True

omit [Scalar α] in
theorem Call.events_of_isPlain (call : Call shape α) (plain : call.IsPlain) : call.events = [] := by
  cases call with
  | preprocess current new | postprocess | setForce composite time factor
  | computeForce part force =>
      cases plain
  | _ =>
      rfl

theorem ends_serve_of_isPlain {flow : FlowTransfer α σ} {call : Call shape α}
    (plain : call.IsPlain) {c : Coordinator shape α} {forces : List (Option (NodalField α))}
    {pending inStep : Bool} (holding : c.Holding forces pending inStep) (state : σ) :
    (call.serve flow).Ends (c, state) (fun _ after => after.1.Holding forces pending inStep)
      fun after => after.1.Holding forces pending inStep := by
  have first {work : Work shape α Unit} (leaves : Leaves work) :
      (Action.first work : Action α (Coordinator shape α × σ) Unit).Ends (c, state)
        (fun _ after => after.1.Holding forces pending inStep)
        fun after => after.1.Holding forces pending inStep := by
    rw [ends_first]
    exact leaves c forces pending inStep holding
  cases call with
  | preprocess current new | postprocess | setForce composite time factor
  | computeForce part force | spread time =>
      cases plain
  | prepare =>
      exact first leaves_prepare
  | listen listener =>
      exact first (leaves_modify (fun _ => rfl) (fun _ => rfl) fun _ => rfl)
  | createComposite =>
      simp only [Call.serve, ends_bind, ends_get, ends_collective]
      split <;> exact holding
  | fluidCalls current new cycle | restartRecord =>
      exact holding
  | requestInterpolation time =>
      exact first leaves_requestInterpolation
  | interpolate time =>
      exact ends_interpolate holding
  | readVelocities composite time factor =>
      simp only [Call.serve, ends_of]
      cases c.readVelocities time factor composite <;> exact holding
  | advance rule current new =>
      exact first leaves_advance
  | skipForce time =>
      exact first leaves_skipForce
  | changeForces time change =>
      exact first (leaves_bind leaves_changeForces fun _ => leaves_pure ())
  | setBodyVelocity part dofs composite =>
      have set : (Coordinator.setBodyVelocity part dofs).Ends (c, composite)
          (fun _ after => after.1.Holding forces pending inStep)
          fun after => after.1.Holding forces pending inStep := ends_setBodyVelocity holding
      simp only [Call.serve, ends_of, Task.alone_bind]
      rw [Ends, Action.alone] at set
      generalize ((Coordinator.setBodyVelocity part dofs).on (c, composite)).alone = result at *
      rcases result with ⟨_ | _, after⟩ <;> exact set
  | updateVelocity part dofs =>
      exact first leaves_updateVelocity
  | setVelocity part velocity =>
      exact first leaves_setVelocity
  | restore record =>
      exact first leaves_restore

/-! ## Calls and the state of the flow -/

section

variable {τ β γ : Type} {kept : σ → Prop}

/-- An action that keeps a property of the second of two states, also if it stops. -/
def Keeps (kept : σ → Prop) (action : Action α (τ × σ) β) : Prop :=
  ∀ member state, kept state →
    action.Ends (member, state) (fun _ after => kept after.2) fun after => kept after.2

omit [Scalar α] in
theorem keeps_bind {action : Action α (τ × σ) β} {f : β → Action α (τ × σ) γ}
    (first : Keeps kept action) (later : ∀ value, Keeps kept (f value)) :
    Keeps kept (action >>= f) := by
  intro member state before
  rw [ends_bind]
  apply (first member state before).imp
  · intro value after between
    exact later value after.1 after.2 between
  · exact fun _ stopped => stopped

omit [Scalar α] in
theorem keeps_first (action : Action α τ β) : Keeps kept (Action.first action) := by
  intro member state before
  rw [ends_first]
  exact ends_of_forall fun _ => before

omit [Scalar α] in
theorem keeps_pure (value : β) : Keeps kept (pure value : Action α (τ × σ) β) :=
  fun _ _ before => before

omit [Scalar α] in
theorem keeps_forStructures {action : Nat → Action α (RigidStructure shape α × σ) Unit}
    (each : ∀ part, Keeps kept (action part)) : Keeps kept (forStructures action) := by
  intro c state before
  apply ends_forStructures (fun _ _ _ => True) (fun _ _ _ => True) (fun _ => kept) kept
  · intro part body state _ before
    exact (each part body state before).imp (fun _ _ after => ⟨trivial, after⟩)
      fun _ after => ⟨trivial, after⟩
  · exact before
  · exact fun _ _ _ after => after
  · exact fun _ _ _ after => after

omit [Scalar α] in
theorem keeps_onDemand {what : Attempt} {check : Coordinator shape α → Except (Violation α) β}
    {consume : StepProtocol α → Except (Violation α) (StepOutcome α Bool)}
    {each : Coordinator shape α → β → Nat → Action α (RigidStructure shape α × σ) Unit}
    (keeps : ∀ c value part, Keeps kept (each c value part)) :
    Keeps kept (onDemand what check consume each) := by
  intro c state before
  rw [onDemand, ends_bind, ends_get]
  refine keeps_bind (keeps_first _) (fun value => ?_) c state before
  apply keeps_bind (keeps_first _)
  intro demanded
  split
  · exact keeps_forStructures fun part => keeps c value part
  · exact keeps_pure ()

theorem keeps_spread {flow : FlowTransfer α σ} (spreads : flow.SpreadsKeep kept) {time : α} :
    Keeps kept (spread flow time : Action α (Coordinator shape α × σ) Unit) := by
  rw [spread_eq_onDemand]
  exact keeps_onDemand fun _ _ _ _ _ before => ends_spreadFrom_of_keeps spreads before

theorem keeps_interpolate {flow : FlowTransfer α σ} (samples : flow.SamplesKeep kept) {time : α} :
    Keeps kept (interpolate flow time : Action α (Coordinator shape α × σ) Unit) := by
  rw [interpolate_eq_onDemand]
  exact keeps_onDemand fun _ _ _ _ _ before => ends_interpolateOnto_of_keeps samples before

/-- A call keeps what the flow keeps; only one kind of call spreads. -/
theorem keeps_serve {flow : FlowTransfer α σ} (samples : flow.SamplesKeep kept)
    {call : Call shape α} (spreads : ∀ time, call = .spread time → flow.SpreadsKeep kept) :
    Keeps kept (call.serve flow) := by
  cases call with
  | spread time =>
      exact keeps_spread (spreads time rfl)
  | interpolate time =>
      exact keeps_interpolate samples
  | fluidCalls current new cycle | restartRecord =>
      exact keeps_pure ()
  | createComposite =>
      intro c state before
      simp only [Call.serve, ends_bind, ends_get, ends_collective]
      split <;> exact before
  | readVelocities composite time factor =>
      intro c state before
      simp only [Call.serve, ends_of]
      cases c.readVelocities time factor composite <;> exact before
  | setBodyVelocity part dofs composite =>
      intro c state before
      simp only [Call.serve, ends_of, Task.alone_bind]
      rcases ((Coordinator.setBodyVelocity part dofs).on (c, composite)).alone with ⟨_ | _, after⟩ <;>
        exact before
  | prepare | listen listener | preprocess current new | postprocess
  | requestInterpolation time | advance rule current new | skipForce time
  | setForce composite time factor | changeForces time change | computeForce part force
  | updateVelocity part dofs | setVelocity part velocity | restore record =>
      exact keeps_first _

end

end ImmersedBody.Coordinator
