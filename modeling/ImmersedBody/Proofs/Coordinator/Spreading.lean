import ImmersedBody.Proofs.Coordinator.ForceEvents
import ImmersedBody.Proofs.Coordinator.Forces

/-!
# Spreading onto a flow that keeps a record

A recorded flow notes every call that spreads a force, with the force that it is
given.  Recording changes nothing else: `forgets_spread` and
`forgets_interpolate` say that what is left without the record is the work on
the flow itself.

When a force is pending and all structures have one, `ends_spread_recorded`
says that the flow is called once for each structure, in order.
-/

namespace ImmersedBody

open RigidStructure ImmersedBody.Action ForceEvent

variable {α σ : Type}

/-- The flow with a record of its calls. -/
def FlowTransfer.recorded (flow : FlowTransfer α σ) :
    FlowTransfer α (σ × List (ForceEvent α)) where
  interpolate part positions time := fun (velocity, state, events) =>
    match flow.interpolate part positions time (velocity, state) with
    | .ok _ (velocity, state) => .ok () (velocity, state, events)
    | .error stop (velocity, state) => .error stop (velocity, state, events)
  spread part positions force time := fun (state, events) =>
    match flow.spread part positions force time state with
    | .ok _ state => .ok () (state, events ++ [.spread part force true])
    | .error stop state => .error stop (state, events ++ [.spread part force false])

/-- The record stays as it is when the velocity of the flow is sampled. -/
theorem FlowTransfer.samplesKeep_recorded {flow : FlowTransfer α σ}
    {property : List (ForceEvent α) → Prop} :
    flow.recorded.SamplesKeep fun state => property state.2 := by
  intro part positions time velocity state kept
  simp only [recorded]
  cases flow.interpolate part positions time (velocity, state.1) <;> exact kept

/-- What is on record stays there. -/
theorem FlowTransfer.spreadsKeep_recorded {flow : FlowTransfer α σ} {event : ForceEvent α} :
    flow.recorded.SpreadsKeep fun state => event ∈ state.2 := by
  intro part positions force time state kept
  simp only [recorded]
  cases flow.spread part positions force time state.1 <;> exact List.mem_append_left _ kept

namespace Coordinator

variable {shape : Shape} {c : Coordinator shape α} {forces : List (Option (NodalField α))}
  {pending inStep : Bool}

section

variable [Scalar α]

/-- Spreading consumes the pending force; only if there is one, structures are visited. -/
theorem ends_spread {flow : FlowTransfer α σ} {time : α} {state : σ}
    {post : Unit → Coordinator shape α × σ → Prop} {stopped : Coordinator shape α × σ → Prop}
    (holding : c.Holding forces pending inStep) (refused : stopped (c, state))
    (settled : pending = false → ∀ after, after.Holding forces false inStep →
      post () (after, state))
    (handed : pending = true → ∀ after level, after.Holding forces false inStep →
      (forStructures (spreadFrom c.name flow level time)).Ends (after, state) post stopped) :
    (spread flow time).Ends (c, state) post stopped := by
  rw [spread]
  simp only [ends_bind, ends_get, ends_first, ends_checking, ends_attempting,
    Coordinator.ends_committing]
  cases c.protocol.window with
  | none =>
      exact refused
  | some window =>
      simp only
      cases c.levelOf .spreadForce window time with
      | error violation =>
          exact refused
      | ok level =>
          simp only
          cases consumed : c.protocol.consumeForce with
          | error violation =>
              exact refused
          | ok outcome =>
              rcases StepProtocol.of_consumeForce holding.consistent consumed with
                ⟨value, consistent, fresh, inStep'⟩
              have kept := holding.protocol consistent fresh (inStep'.trans holding.inStep_eq)
              simp only [ends_ite, value, holding.pending_eq]
              split
              next pending =>
                exact handed pending _ level kept
              next idle =>
                exact settled (Bool.eq_false_of_not_eq_true idle) _ kept

/--
If all structures have a force and the flow takes all of them, it is called once for each structure,
in order, as soon as a force is pending.
-/
theorem ends_spread_recorded {flow : FlowTransfer α σ} {time : α} {state : σ}
    {events : List (ForceEvent α)} {current : List (NodalField α)}
    (holding : c.Holding (current.map some) pending inStep) :
    (spread flow.recorded time).Ends (c, state, events)
      (fun _ after => after.1.Holding (current.map some) false inStep ∧
        after.2.2 = if pending then events ++ handovers 0 current else events)
      fun after => after.1.Holding (current.map some) pending inStep ∧ after.2.2 = events ∨
        ∃ part force, .spread part force false ∈ after.2.2 := by
  apply ends_spread holding
  · exact Or.inl ⟨holding, rfl⟩
  · rintro rfl after kept
    exact ⟨kept, rfl⟩
  · rintro rfl between level kept
    apply Coordinator.ends_forStructures (fun _ body after => body = after) (fun _ _ _ => True)
      (fun part after => after.2 = events ++ (handovers 0 current).take part)
      fun after => ∃ part force, .spread part force false ∈ after.2
    · intro part body state member noted
      have force_eq := kept.force_eq (List.mk_mem_zipIdx_iff_getElem?.mp member)
      rw [ends_spreadFrom]
      cases carried : current[part]? with
      | none =>
          rw [List.getElem?_map, carried] at force_eq
          cases force_eq
      | some force =>
          rw [List.getElem?_map, carried, Option.map_some, Option.some.injEq] at force_eq
          rcases Option.map_eq_some_iff.mp force_eq.symm with ⟨step, opened, rfl⟩
          rw [opened]
          simp only [FlowTransfer.recorded]
          cases flow.spread part (body.positionsAt step level) step.halfForce time state.1 with
          | error stop after =>
              exact ⟨trivial, part, step.halfForce, by simp⟩
          | ok value after =>
              refine ⟨trivial, ?_⟩
              rw [noted, List.take_add_one, getElem?_handovers, carried, List.append_assoc,
                Nat.zero_add]
              rfl
    · rw [List.take_zero, List.append_nil]
    · intro structures state finished noted
      have same : List.Forall₂ Eq between.structures structures :=
        finished.forall₂ fun _ _ _ equal => equal
      rw [List.forall₂_eq_eq_eq] at same
      subst same
      refine ⟨kept, ?_⟩
      rw [noted, if_pos rfl, kept.length_eq, List.length_map, ← length_handovers, List.take_length]
    · intro structures state _ noted
      exact Or.inr noted

end

/-! ## Leaving the record away -/

section

variable {τ ρ β : Type}

/-- Work on each member of a list, as an action on the list. -/
def eachFrom (action : Nat → Action α (τ × ρ) Unit) (number : Nat) : Action α (List τ × ρ) Unit :=
  Action.of fun (members, shared) => onEach action number members shared

theorem ends_eachFrom_cons {action : Nat → Action α (τ × ρ) Unit} {number : Nat} {member : τ}
    {members : List τ} {state : ρ} {post : Unit → List τ × ρ → Prop}
    {stopped : List τ × ρ → Prop} :
    (eachFrom action number).Ends (member :: members, state) post stopped ↔
      (action number).Ends (member, state)
        (fun _ after => (eachFrom action (number + 1)).Ends (members, after.2)
          (fun value rest => post value (after.1 :: rest.1, rest.2))
          fun rest => stopped (after.1 :: rest.1, rest.2))
        fun after => stopped (after.1 :: members, after.2) := by
  simp only [eachFrom, ends_of]
  rw [onEach, Task.alone_bind, Ends, Action.alone]
  rcases ((action number).on (member, state)).alone with ⟨_ | _, after, state'⟩
  · rfl
  · simp only [Task.alone_bind]
    rcases (onEach action (number + 1) members state').alone with ⟨_ | _, rest⟩ <;> rfl

/-- An action that ends as another one does, whatever it has on record. -/
def Forgets (noting : Action α (τ × σ × List (ForceEvent α)) β) (action : Action α (τ × σ) β) :
    Prop :=
  ∀ member state events (post : β → τ × σ → Prop) (stopped : τ × σ → Prop),
    action.Ends (member, state) post stopped →
      noting.Ends (member, state, events) (fun value after => post value (after.1, after.2.1))
        fun after => stopped (after.1, after.2.1)

theorem forgets_eachFrom {noting : Nat → Action α (τ × σ × List (ForceEvent α)) Unit}
    {action : Nat → Action α (τ × σ) Unit}
    (forgets : ∀ number, Forgets (noting number) (action number)) (number : Nat) :
    Forgets (eachFrom noting number) (eachFrom action number) := by
  intro members
  induction members generalizing number with
  | nil =>
      intro state events post stopped ends
      exact ends
  | cons member members ih =>
      intro state events post stopped ends
      rw [ends_eachFrom_cons] at ends ⊢
      apply (forgets number member state events _ _ ends).imp
      · intro _ after later
        exact ih _ _ _ _ _ later
      · exact fun _ stopped => stopped

theorem forgets_forStructures
    {noting : Nat → Action α (RigidStructure shape α × σ × List (ForceEvent α)) Unit}
    {action : Nat → Action α (RigidStructure shape α × σ) Unit}
    (forgets : ∀ number, Forgets (noting number) (action number)) :
    Forgets (forStructures noting) (forStructures action) := by
  intro c state events post stopped ends
  have each := forgets_eachFrom forgets 0 c.structures state events
    (fun value after => post value ({ c with structures := after.1 }, after.2))
    fun after => stopped ({ c with structures := after.1 }, after.2)
  rw [forStructures, ends_of, Task.alone_bind] at ends ⊢
  rw [eachFrom, eachFrom, ends_of, ends_of] at each
  generalize (onEach action 0 c.structures state).alone = result at *
  generalize (onEach noting 0 c.structures (state, events)).alone = result' at *
  rcases result with ⟨_ | _, after⟩ <;> rcases result' with ⟨_ | _, after'⟩ <;> exact each ends

theorem forgets_bind {γ : Type} {noting : Action α (τ × σ × List (ForceEvent α)) β}
    {action : Action α (τ × σ) β} {f : β → Action α (τ × σ × List (ForceEvent α)) γ}
    {g : β → Action α (τ × σ) γ} (first : Forgets noting action)
    (later : ∀ value, Forgets (f value) (g value)) : Forgets (noting >>= f) (action >>= g) := by
  intro member state events post stopped ends
  rw [ends_bind] at ends ⊢
  apply (first member state events _ _ ends).imp
  · intro value after next
    exact later value _ _ _ _ _ next
  · exact fun _ stopped => stopped

theorem forgets_first (action : Action α τ β) :
    Forgets (Action.first action : Action α (τ × σ × List (ForceEvent α)) β)
      (Action.first action) := by
  intro member state events post stopped ends
  rw [ends_first] at ends ⊢
  exact ends

theorem forgets_pure (value : β) :
    Forgets (pure value : Action α (τ × σ × List (ForceEvent α)) β) (pure value) :=
  fun _ _ _ _ _ ends => ends

end

theorem forgets_spreadFrom {objectName : String} {flow : FlowTransfer α σ} {level : TimeLevel}
    {time : α} {part : Nat} :
    Forgets (spreadFrom objectName flow.recorded level time part :
        Action α (RigidStructure shape α × σ × List (ForceEvent α)) Unit)
      (spreadFrom objectName flow level time part) := by
  intro body state events post stopped ends
  rw [ends_spreadFrom] at ends ⊢
  cases opened : body.step with
  | none =>
      rw [opened] at ends
      exact ends
  | some step =>
      rw [opened] at ends
      simp only [FlowTransfer.recorded] at ends ⊢
      generalize flow.spread part (body.positionsAt step level) step.halfForce time state = result at *
      cases result <;> exact ends

section

variable [Scalar α]

theorem forgets_interpolateOnto {seat : Seat} {objectName : String} {flow : FlowTransfer α σ}
    {level : TimeLevel} {time : α} {part : Nat} :
    Forgets (interpolateOnto seat objectName flow.recorded level time part :
        Action α (RigidStructure shape α × σ × List (ForceEvent α)) Unit)
      (interpolateOnto seat objectName flow level time part) := by
  intro body state events post stopped ends
  rw [interpolateOnto] at ends ⊢
  simp only [ends_bind, ends_get, ends_stepFields, ends_part, ends_attempt] at ends ⊢
  cases found : body.step with
  | none =>
      rw [found] at ends
      exact ends
  | some step =>
      rw [found] at ends
      simp only [FlowTransfer.recorded] at ends ⊢
      generalize flow.interpolate part (body.positionsAt step level) time
        (body.flowVelocityAt step level, state) = result at *
      cases result with
      | error stop after =>
          exact ends
      | ok value after =>
          simp only at ends ⊢
          generalize (body.withFlowVelocity step level after.1).step = again at *
          cases again with
          | none =>
              exact ends
          | some step' =>
              simp only [ends_collective, ends_set] at ends ⊢
              split at ends <;> simp_all

omit [Scalar α] in
theorem forgets_onDemand {what : Attempt} {check : Coordinator shape α → Except (Violation α) β}
    {consume : StepProtocol α → Except (Violation α) (StepOutcome α Bool)}
    {noting : Coordinator shape α → β → Nat →
      Action α (RigidStructure shape α × σ × List (ForceEvent α)) Unit}
    {each : Coordinator shape α → β → Nat → Action α (RigidStructure shape α × σ) Unit}
    (forgets : ∀ c value part, Forgets (noting c value part) (each c value part)) :
    Forgets (onDemand what check consume noting) (onDemand what check consume each) := by
  intro c state events post stopped ends
  rw [onDemand, ends_bind, ends_get] at ends ⊢
  refine forgets_bind (forgets_first _) (fun value => ?_) c state events post stopped ends
  apply forgets_bind (forgets_first _)
  intro demanded
  split
  · exact forgets_forStructures fun part => forgets c value part
  · exact forgets_pure ()

/-- Recording does not change how the forces are spread. -/
theorem forgets_spread {flow : FlowTransfer α σ} {time : α} :
    Forgets (spread flow.recorded time :
      Action α (Coordinator shape α × σ × List (ForceEvent α)) Unit) (spread flow time) := by
  rw [spread_eq_onDemand, spread_eq_onDemand]
  exact forgets_onDemand fun _ _ _ => forgets_spreadFrom

/-- Recording does not change how the velocity of the flow is sampled. -/
theorem forgets_interpolate {flow : FlowTransfer α σ} {time : α} :
    Forgets (interpolate flow.recorded time :
      Action α (Coordinator shape α × σ × List (ForceEvent α)) Unit) (interpolate flow time) := by
  rw [interpolate_eq_onDemand, interpolate_eq_onDemand]
  exact forgets_onDemand fun _ _ _ => forgets_interpolateOnto

end

end Coordinator

end ImmersedBody
