import ImmersedBody.Coordinator.Exchange
import ImmersedBody.Proofs.Ranks.Alone

/-!
# Work of a coordinator on the only rank

The rules of `Action.Ends` for the ways in which the work of a coordinator is
put together: checks and operations of the protocol, and work on one structure
or on all of them.

Sampling and spreading are put together alike: `onDemand` is what they have in
common, so that what holds of both is proved of it.
-/

namespace ImmersedBody.Coordinator

open ImmersedBody.Action

variable {α β σ : Type} {shape : Shape} {c : Coordinator shape α}
  {post : β → Coordinator shape α → Prop} {stopped : Coordinator shape α → Prop}

@[simp]
theorem ends_attempting {what : Attempt} {work : Work shape α β} :
    (attempting what work).Ends c post stopped ↔ work.Ends c post stopped := by
  rw [attempting, ends_bind, ends_get, ends_attempt]

@[simp]
theorem ends_checking {what : Attempt}
    {check : Coordinator shape α → Except (Violation α) β} :
    (checking what check).Ends c post stopped ↔
      match check c with
      | .ok value => post value c
      | .error _ => stopped c := by
  rw [checking, ends_bind, ends_get, ends_attempting]
  exact ends_require

@[simp]
theorem ends_committing
    {operation : StepProtocol α → Except (Violation α) (StepOutcome α β)} :
    (committing operation : Work shape α β).Ends c post stopped ↔
      match operation c.protocol with
      | .ok outcome => post outcome.value { c with protocol := outcome.protocol }
      | .error _ => stopped c := by
  rw [committing, ends_bind, ends_get, ends_bind, ends_require]
  cases operation c.protocol with
  | error violation =>
      rfl
  | ok outcome =>
      simp

/-- Work on all structures, given what it does to one of them. -/
theorem ends_forStructures {action : Nat → Action α (RigidStructure shape α × σ) Unit}
    {state : σ} {post : Unit → Coordinator shape α × σ → Prop}
    {stopped : Coordinator shape α × σ → Prop}
    (done stop : Nat → RigidStructure shape α → RigidStructure shape α → Prop)
    (shared : Nat → σ → Prop) (spoilt : σ → Prop)
    (each : ∀ part body state, (body, part) ∈ c.structures.zipIdx → shared part state →
      (action part).Ends (body, state)
        (fun _ after => done part body after.1 ∧ shared (part + 1) after.2)
        (fun after => stop part body after.1 ∧ spoilt after.2))
    (before : shared 0 state)
    (good : ∀ structures state, Finished done 0 c.structures structures →
      shared c.structures.length state → post () ({ c with structures }, state))
    (bad : ∀ structures state, Stopped done stop 0 c.structures structures → spoilt state →
      stopped ({ c with structures }, state)) :
    (forStructures action).Ends (c, state) post stopped := by
  have all := alone_onEach each before
  rw [forStructures, ends_of, Task.alone_bind]
  generalize (onEach action 0 c.structures state).alone = result at *
  rcases result with ⟨_ | _, structures, after⟩
  · exact bad structures after all.1 all.2
  · rw [Nat.zero_add] at all
    exact good structures after all.1 all.2

theorem ends_forEachStructure {action : Nat → Action α (RigidStructure shape α) Unit}
    {post : Unit → Coordinator shape α → Prop}
    (done stop : Nat → RigidStructure shape α → RigidStructure shape α → Prop)
    (each : ∀ part body, (body, part) ∈ c.structures.zipIdx →
      (action part).Ends body (fun _ after => done part body after)
        fun after => stop part body after)
    (good : ∀ structures, Finished done 0 c.structures structures →
      post () { c with structures })
    (bad : ∀ structures, Stopped done stop 0 c.structures structures →
      stopped { c with structures }) :
    (forEachStructure action).Ends c post stopped := by
  have all : (forStructures fun part => (action part).first).Ends (c, ())
      (fun value after => post value after.1) (fun after => stopped after.1) := by
    apply ends_forStructures done stop (fun _ _ => True) (fun _ => True)
    · intro part body state member _
      rw [ends_first]
      exact (each part body member).imp (fun _ _ finished => ⟨finished, trivial⟩)
        fun _ failed => ⟨failed, trivial⟩
    · trivial
    · exact fun structures _ finished _ => good structures finished
    · exact fun structures _ failed _ => bad structures failed
  rw [forEachStructure, ends_of, Task.alone_bind]
  rw [Ends, Action.alone] at all
  generalize ((forStructures fun part => (action part).first).on (c, ())).alone = result at *
  rcases result with ⟨_ | _, after, _⟩ <;> exact all

/-! ## Work on demand -/

/--
A check, an operation of the protocol that tells whether there is something to do, and if there is,
work on one structure after the other.
-/
def onDemand (what : Attempt) (check : Coordinator shape α → Except (Violation α) β)
    (consume : StepProtocol α → Except (Violation α) (StepOutcome α Bool))
    (each : Coordinator shape α → β → Nat → Action α (RigidStructure shape α × σ) Unit) :
    Action α (Coordinator shape α × σ) Unit := do
  let (c, _) ← get
  let value ← Action.first (checking what check)
  if ← Action.first (attempting what (committing consume)) then
    forStructures (each c value)

/-- The level of a time at which the velocity of the flow may be sampled. -/
def checkSample [Scalar α] (time : α) (c : Coordinator shape α) :
    Except (Violation α) TimeLevel := do
  let window ← c.protocol.check .interpolateVelocity
  c.levelOf .interpolateVelocity window time

/-- The level of a time at which forces may be spread. -/
def checkSpread [Scalar α] (time : α) (c : Coordinator shape α) :
    Except (Violation α) TimeLevel :=
  match c.protocol.window with
  | some window => c.levelOf .spreadForce window time
  | none => .error (.notInStep .spreadForce)

theorem interpolate_eq_onDemand [Scalar α] (flow : FlowTransfer α σ) (time : α) :
    (interpolate flow time : Action α (Coordinator shape α × σ) Unit) =
      onDemand .interpolate (checkSample time) StepProtocol.consumeRequest fun c level =>
        interpolateOnto c.seat c.name flow level time :=
  rfl

theorem spread_eq_onDemand [Scalar α] (flow : FlowTransfer α σ) (time : α) :
    (spread flow time : Action α (Coordinator shape α × σ) Unit) =
      onDemand .spread (checkSpread time) StepProtocol.consumeForce fun c level =>
        spreadFrom c.name flow level time :=
  rfl

end ImmersedBody.Coordinator
