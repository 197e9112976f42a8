import ImmersedBody.Ranks.Task

/-!
# Actions on a state

An `Action` is the work of one rank on a state that it keeps.  If the work stops, what was done to
the state before remains done.  This module holds the ways to put smaller work into an action.
-/

namespace ImmersedBody

namespace Action

variable {α σ τ β : Type}

/-- The action that a function from the state to a task amounts to. -/
def of (f : σ → Task α (Except (Stop α) β × σ)) : Action α σ β :=
  ExceptT.mk f

/-- Carries out an action on a state. -/
def on (action : Action α σ β) (state : σ) : Task α (Except (Stop α) β × σ) :=
  action.run state

/-- Stops because of a cause. -/
def refuse (cause : Cause α) : Action α σ β :=
  throw (.because cause)

/-- Gives notices. -/
def tell (notices : List (Notice α)) : Action α σ Unit :=
  of fun state => (Task.tellAll notices).bind fun _ => .done (.ok (), state)

/-- Work that does not touch the state. -/
def collective (work : Collective α β) : Action α σ β :=
  of fun state => (show Task α (Except (Stop α) β) from work.run).bind fun outcome =>
    .done (outcome, state)

/-- Puts an attempt of a named method around the failures of an action. -/
def attempt (objectName : String) (what : Attempt) (action : Action α σ β) : Action α σ β :=
  of fun state => (action.on state).bind fun (outcome, state) =>
    .done (outcome.mapError (·.within objectName what), state)

/-- The value that a check yields, or its violation as a failure. -/
def require (result : Except (Violation α) β) : Action α σ β :=
  of fun state => .done (result.mapError fun v => .because (.violation v), state)

/-- Works on a part of the state. -/
def part (get : σ → τ) (put : τ → σ → σ) (work : EStateM (Stop α) τ β) : Action α σ β :=
  of fun state =>
    match work (get state) with
    | .ok value t => .done (.ok value, put t state)
    | .error stop t => .done (.error stop, put t state)

/-- Works on the first of two states. -/
def first (action : Action α τ β) : Action α (τ × σ) β :=
  of fun (state, other) => (action.on state).bind fun (outcome, state) =>
    .done (outcome, state, other)

/--
Carries out an action on each member of a list in order, together with a state that they share.
The first that stops ends it.
-/
def onEach (action : Nat → Action α (τ × σ) Unit) :
    (number : Nat) → List τ → σ → Task α (Except (Stop α) Unit × List τ × σ)
  | _, [], shared => .done (.ok (), [], shared)
  | number, member :: members, shared =>
    ((action number).on (member, shared)).bind fun (outcome, member, shared) =>
      match outcome with
      | .error stop => .done (.error stop, member :: members, shared)
      | .ok () =>
        (onEach action (number + 1) members shared).bind fun (outcome, members, shared) =>
          .done (outcome, member :: members, shared)

end Action

end ImmersedBody
