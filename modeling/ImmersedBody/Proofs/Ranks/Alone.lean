import ImmersedBody.Ranks.Action
import Mathlib.Data.List.Forall2

/-!
# Work on the only rank

On the only rank every sum has one summand, so a collective always succeeds and
work can be read as a function.  `Collective.alone` and `Action.alone` are these
functions.

What an action does is stated with `Action.Ends`: from a given state it ends
with a value and a state that satisfy one property, or it stops in a state that
satisfies another one.  There is one rewriting rule for each way to put actions
together, so that a claim about a composed action becomes a claim about its parts.
-/

namespace ImmersedBody

variable {α σ τ β γ : Type}

namespace Task

theorem alone_bind (task : Task α β) (f : β → Task α γ) :
    (task.bind f).alone = (f task.alone).alone := by
  induction task with
  | done result =>
      rfl
  | tell notice next ih =>
      exact ih
  | reduce tag values next ih =>
      exact ih (.ok values)

end Task

namespace Collective

/-- The result of collective work on the only rank. -/
def alone (work : Collective α β) : Except (Stop α) β :=
  Task.alone work.run

@[simp]
theorem alone_mk_pure (result : Except (Stop α) β) :
    alone (ExceptT.mk (pure result) : Collective α β) = result :=
  rfl

@[simp]
theorem alone_lift (task : Task α β) :
    alone (ExceptT.lift task : Collective α β) = .ok task.alone := by
  show ((task.bind fun value => .done (.ok value)) : Task α (Except (Stop α) β)).alone = _
  rw [Task.alone_bind]
  rfl

@[simp]
theorem alone_pure (value : β) : alone (pure value : Collective α β) = .ok value :=
  rfl

@[simp]
theorem alone_throw (stop : Stop α) : alone (throw stop : Collective α β) = .error stop :=
  rfl

@[simp]
theorem alone_sum {n : Nat} (tag : String) (values : Vector α n) :
    alone (sum tag values) = .ok values :=
  rfl

@[simp]
theorem alone_bind (work : Collective α β) (f : β → Collective α γ) :
    alone (work >>= f) =
      match alone work with
      | .ok value => alone (f value)
      | .error stop => .error stop := by
  show (Task.bind work.run (ExceptT.bindCont f)).alone = _
  rw [Task.alone_bind]
  show _ = match Task.alone work.run with
    | .ok value => alone (f value)
    | .error stop => .error stop
  cases Task.alone work.run <;> rfl

end Collective

namespace Action

/-- The result of an action on the only rank, and the state after it. -/
def alone (action : Action α σ β) (state : σ) : Except (Stop α) β × σ :=
  (action.on state).alone

/-- How an action ends on the only rank: with a value, or because it stops. -/
def Ends (action : Action α σ β) (state : σ) (post : β → σ → Prop) (stopped : σ → Prop) : Prop :=
  match action.alone state with
  | (.ok value, after) => post value after
  | (.error _, after) => stopped after

variable {action : Action α σ β} {state : σ} {post : β → σ → Prop} {stopped : σ → Prop}

theorem Ends.imp {post' : β → σ → Prop} {stopped' : σ → Prop}
    (ends : action.Ends state post stopped) (good : ∀ value after, post value after → post' value after)
    (bad : ∀ after, stopped after → stopped' after) : action.Ends state post' stopped' := by
  rw [Ends] at *
  generalize action.alone state = result at *
  rcases result with ⟨_ | value, after⟩
  · exact bad after ends
  · exact good value after ends

theorem Ends.and {post' : β → σ → Prop} {stopped' : σ → Prop}
    (ends : action.Ends state post stopped) (ends' : action.Ends state post' stopped') :
    action.Ends state (fun value after => post value after ∧ post' value after)
      fun after => stopped after ∧ stopped' after := by
  rw [Ends] at *
  generalize action.alone state = result at *
  rcases result with ⟨_ | value, after⟩ <;> exact ⟨ends, ends'⟩

/-- An action ends in some state. -/
theorem ends_of_forall {property : σ → Prop} (always : ∀ after, property after) :
    action.Ends state (fun _ after => property after) property := by
  rw [Ends]
  rcases action.alone state with ⟨_ | value, after⟩ <;> exact always after

/-- How an action ends may depend on something that is not known yet. -/
theorem ends_of_imp {condition : Prop} (ends : condition → action.Ends state post stopped) :
    action.Ends state (fun value after => condition → post value after)
      fun after => condition → stopped after := by
  simp only [Ends] at *
  generalize action.alone state = result at *
  rcases result with ⟨_ | value, after⟩ <;> exact ends

@[simp]
theorem ends_pure {value : β} :
    (pure value : Action α σ β).Ends state post stopped ↔ post value state :=
  Iff.rfl

@[simp]
theorem ends_refuse {cause : Cause α} :
    (Action.refuse cause : Action α σ β).Ends state post stopped ↔ stopped state :=
  Iff.rfl

@[simp]
theorem ends_get {post : σ → σ → Prop} :
    (get : Action α σ σ).Ends state post stopped ↔ post state state :=
  Iff.rfl

@[simp]
theorem ends_set {next : σ} {post : Unit → σ → Prop} :
    (set next : Action α σ Unit).Ends state post stopped ↔ post () next :=
  Iff.rfl

@[simp]
theorem ends_modify {f : σ → σ} {post : Unit → σ → Prop} :
    (modify f : Action α σ Unit).Ends state post stopped ↔ post () (f state) :=
  Iff.rfl

theorem alone_bind (action : Action α σ β) (f : β → Action α σ γ) (state : σ) :
    (action >>= f).alone state =
      match action.alone state with
      | (.ok value, after) => (f value).alone after
      | (.error stop, after) => (.error stop, after) := by
  show ((action.on state).bind fun outcome => (ExceptT.bindCont f outcome.1).run outcome.2).alone = _
  rw [Task.alone_bind]
  show _ = match (action.on state).alone with
    | (.ok value, after) => (f value).alone after
    | (.error stop, after) => (.error stop, after)
  rcases (action.on state).alone with ⟨_ | value, after⟩ <;> rfl

@[simp]
theorem ends_bind {f : β → Action α σ γ} {post : γ → σ → Prop} :
    (action >>= f).Ends state post stopped ↔
      action.Ends state (fun value after => (f value).Ends after post stopped) stopped := by
  rw [Ends, Ends, alone_bind]
  rcases action.alone state with ⟨_ | value, after⟩ <;> rfl

@[simp]
theorem ends_map {f : β → γ} {post : γ → σ → Prop} :
    (f <$> action).Ends state post stopped ↔
      action.Ends state (fun value after => post (f value) after) stopped :=
  ends_bind

theorem ends_of {f : σ → Task α (Except (Stop α) β × σ)} :
    (Action.of f).Ends state post stopped ↔
      match (f state).alone with
      | (.ok value, after) => post value after
      | (.error _, after) => stopped after :=
  Iff.rfl

@[simp]
theorem ends_require {result : Except (Violation α) β} :
    (Action.require result : Action α σ β).Ends state post stopped ↔
      match result with
      | .ok value => post value state
      | .error _ => stopped state := by
  cases result <;> rfl

@[simp]
theorem ends_tell {notices : List (Notice α)} {post : Unit → σ → Prop} :
    (Action.tell notices : Action α σ Unit).Ends state post stopped ↔ post () state := by
  rw [Action.tell, ends_of, Task.alone_bind]
  rfl

@[simp]
theorem ends_collective {work : Collective α β} :
    (Action.collective work : Action α σ β).Ends state post stopped ↔
      match work.alone with
      | .ok value => post value state
      | .error _ => stopped state := by
  rw [Action.collective, ends_of, Task.alone_bind]
  show (match (work.alone, state) with
    | (.ok value, after) => post value after
    | (.error _, after) => stopped after) ↔ _
  cases work.alone <;> rfl

@[simp]
theorem ends_attempt {objectName : String} {what : Attempt} :
    (action.attempt objectName what).Ends state post stopped ↔
      action.Ends state post stopped := by
  rw [Action.attempt, ends_of, Task.alone_bind, Ends, Action.alone]
  rcases (action.on state).alone with ⟨_ | value, after⟩ <;> rfl

@[simp]
theorem ends_part {get : σ → τ} {put : τ → σ → σ} {work : EStateM (Stop α) τ β} :
    (Action.part get put work).Ends state post stopped ↔
      match work (get state) with
      | .ok value after => post value (put after state)
      | .error _ after => stopped (put after state) := by
  rw [Action.part, ends_of]
  cases work (get state) <;> rfl

/-- An action on the first of two states. -/
@[simp]
theorem ends_first {other : τ} {post : β → σ × τ → Prop} {stopped : σ × τ → Prop} :
    (Action.first action : Action α (σ × τ) β).Ends (state, other) post stopped ↔
      action.Ends state (fun value after => post value (after, other))
        fun after => stopped (after, other) := by
  rw [Action.first, ends_of, Task.alone_bind, Ends, Action.alone]
  rcases (action.on state).alone with ⟨_ | value, after⟩ <;> rfl

@[simp]
theorem ends_ite {condition : Prop} [Decidable condition] {other : Action α σ β} :
    (if condition then action else other).Ends state post stopped ↔
      if condition then action.Ends state post stopped else other.Ends state post stopped := by
  split <;> rfl

/-! ## Work on each member of a list -/

/--
How work on each member of a list ends when it stops: some members are done,
one has stopped it, and the rest is untouched.
-/
inductive Stopped (done stop : Nat → τ → τ → Prop) : Nat → List τ → List τ → Prop where
  | here {number : Nat} {member after : τ} (rest : List τ) (stopped : stop number member after) :
      Stopped done stop number (member :: rest) (after :: rest)
  | there {number : Nat} {member after : τ} {rest rest' : List τ}
      (finished : done number member after) (later : Stopped done stop (number + 1) rest rest') :
      Stopped done stop number (member :: rest) (after :: rest')

/-- How work on each member of a list ends when it does not stop. -/
inductive Finished (done : Nat → τ → τ → Prop) : Nat → List τ → List τ → Prop where
  | nil (number : Nat) : Finished done number [] []
  | cons {number : Nat} {member after : τ} {rest rest' : List τ}
      (finished : done number member after) (later : Finished done (number + 1) rest rest') :
      Finished done number (member :: rest) (after :: rest')

/--
Work on each member of a list, given what it does to one of them.  What is
known of the shared state may depend on how many members are done.
-/
theorem alone_onEach {action : Nat → Action α (τ × σ) Unit} {done stop : Nat → τ → τ → Prop}
    {shared : Nat → σ → Prop} {spoilt : σ → Prop} {members : List τ} :
    ∀ {number : Nat} {state : σ},
      (∀ i member state, (member, i) ∈ members.zipIdx number → shared i state →
        (action i).Ends (member, state)
          (fun _ after => done i member after.1 ∧ shared (i + 1) after.2)
          (fun after => stop i member after.1 ∧ spoilt after.2)) →
      shared number state →
      match (onEach action number members state).alone with
      | (.ok _, members', state') =>
        Finished done number members members' ∧ shared (number + members.length) state'
      | (.error _, members', state') =>
        Stopped done stop number members members' ∧ spoilt state' := by
  induction members with
  | nil =>
      intro number state each before
      exact ⟨.nil number, before⟩
  | cons member rest ih =>
      intro number state each before
      have first := each number member state (by simp) before
      rw [onEach, Task.alone_bind]
      rw [Ends, Action.alone] at first
      generalize ((action number).on (member, state)).alone = result at *
      rcases result with ⟨stop | _, after, state'⟩
      · exact ⟨.here rest first.1, first.2⟩
      · rcases first with ⟨finished, between⟩
        have others : ∀ i other state, (other, i) ∈ rest.zipIdx (number + 1) → shared i state →
            (action i).Ends (other, state)
              (fun _ after => done i other after.1 ∧ shared (i + 1) after.2)
              (fun after => stop i other after.1 ∧ spoilt after.2) := by
          intro i other state found
          exact each i other state (by simp [found])
        have later := ih others between
        simp only [Task.alone_bind]
        generalize (onEach action (number + 1) rest state').alone = result at *
        rcases result with ⟨stop | _, rest', state''⟩
        · exact ⟨.there finished later.1, later.2⟩
        · refine ⟨.cons finished later.1, ?_⟩
          rw [List.length_cons, Nat.add_comm rest.length 1, ← Nat.add_assoc]
          exact later.2

theorem Finished.forall₂ {done : Nat → τ → τ → Prop} {related : τ → τ → Prop} {number : Nat}
    {members members' : List τ} (finished : Finished done number members members')
    (each : ∀ i member after, done i member after → related member after) :
    List.Forall₂ related members members' := by
  induction finished with
  | nil number =>
      exact .nil
  | cons first later ih =>
      exact .cons (each _ _ _ first) ih

theorem Finished.getElem {done : Nat → τ → τ → Prop} {number : Nat} {members members' : List τ}
    (finished : Finished done number members members') :
    members'.length = members.length ∧
      ∀ i (before : i < members.length) (after : i < members'.length),
        done (number + i) members[i] members'[i] := by
  induction finished with
  | nil number =>
      exact ⟨rfl, fun i before => absurd before (Nat.not_lt_zero i)⟩
  | @cons number member after rest rest' first later ih =>
      rcases ih with ⟨length_eq, each⟩
      refine ⟨congrArg Nat.succ length_eq, ?_⟩
      intro i before after
      cases i with
      | zero =>
          exact first
      | succ i =>
          have next := each i (Nat.lt_of_succ_lt_succ before) (Nat.lt_of_succ_lt_succ after)
          rw [Nat.add_assoc, Nat.add_comm 1 i] at next
          exact next

/-- Work on a list stops at one of its members. -/
theorem Stopped.exists_stop {done stop : Nat → τ → τ → Prop} {number : Nat}
    {members members' : List τ} (stopped : Stopped done stop number members members') :
    members'.length = members.length ∧
      ∃ i, ∃ member ∈ members, ∃ after ∈ members', stop i member after := by
  induction stopped with
  | here rest stopped =>
      exact ⟨rfl, _, _, List.mem_cons_self, _, List.mem_cons_self, stopped⟩
  | there finished later ih =>
      rcases ih with ⟨length_eq, i, member, found, after, found', stopped⟩
      exact ⟨congrArg Nat.succ length_eq, i, member, List.mem_cons_of_mem _ found, after,
        List.mem_cons_of_mem _ found', stopped⟩

theorem Stopped.forall₂ {done stop : Nat → τ → τ → Prop} {related : τ → τ → Prop} {number : Nat}
    {members members' : List τ} (stopped : Stopped done stop number members members')
    (each : ∀ i member after, done i member after → related member after)
    (last : ∀ i member after, stop i member after → related member after)
    (untouched : ∀ member ∈ members, related member member) :
    List.Forall₂ related members members' := by
  induction stopped with
  | here rest stopped =>
      apply List.Forall₂.cons (last _ _ _ stopped)
      exact List.forall₂_same.mpr fun other found =>
        untouched other (List.mem_cons_of_mem _ found)
  | there finished later ih =>
      apply List.Forall₂.cons (each _ _ _ finished)
      exact ih fun other found => untouched other (List.mem_cons_of_mem _ found)

end Action

end ImmersedBody
