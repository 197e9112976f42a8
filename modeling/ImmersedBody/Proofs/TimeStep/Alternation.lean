import Mathlib.Data.List.Chain
import ImmersedBody.Proofs.Rational
import ImmersedBody.Proofs.TimeStep.History

/-!
# Productions and consumptions take turns

Within a step, a hand-off is produced and consumed in turns, and a production
comes first.  A constraint force has been consumed as often as it has been
produced when the step is closed; one request of an interpolation may be left,
and no later step consumes it.

All of this holds because a hand-off is ready exactly when the last turn of its
step was a production.  `TakesTurns` says so, and every call keeps it.  Nothing
is asked of the calls: even an operation that a coordinator never records leaves
the hand-offs alone.
-/

namespace ImmersedBody.StepProtocol

variable {α : Type}

/-- The two sides of a hand-off. -/
inductive Turn where
  | produced
  | consumed
deriving DecidableEq

/-- What an accepted call does to a hand-off.  To find nothing to consume is no turn. -/
def Entry.turn? (handoff : Handoff) (entry : Entry α) : Option Turn :=
  match handoff, entry.call, entry.answer with
  | .lagrangianVelocity, .requestInterpolation _, _ => some .produced
  | .lagrangianVelocity, .consumeRequest, .consumed true => some .consumed
  | .constraintForce, .produceForce _, _ => some .produced
  | .constraintForce, .consumeForce, .consumed true => some .consumed
  | _, _, _ => none

/-- The turns of a hand-off within a step. -/
def turns (handoff : Handoff) (step : List (Entry α)) : List Turn :=
  step.filterMap (Entry.turn? handoff)

/-- The turns strictly alternate, and a production comes first. -/
def Alternates (turns : List Turn) : Prop :=
  turns.head? ≠ some .consumed ∧ turns.IsChain (· ≠ ·)

/-- The hand-off takes place in turns in all steps of a history. -/
structure HandsOver (handoff : Handoff) (events : List (Entry α)) : Prop where
  /-- At any time within a step, the turns that have been taken in it alternate. -/
  alternates : ∀ past future step, events = past ++ future → underway past = some step →
    Alternates (turns handoff step)
  /-- When a step is closed, at most one production is left over. -/
  balanced : ∀ past closing future, events = past ++ closing :: future → closing.call = .endStep →
    ∃ step, underway past = some step ∧
      (turns handoff step).count .consumed ≤ (turns handoff step).count .produced ∧
      (turns handoff step).count .produced ≤ (turns handoff step).count .consumed + 1
  /-- When a step is closed, no force is left over. -/
  settled : handoff = .constraintForce → ∀ past closing future,
    events = past ++ closing :: future → closing.call = .endStep →
    ∃ step, underway past = some step ∧
      (turns handoff step).count .produced = (turns handoff step).count .consumed
  /-- Whatever is consumed is what was produced last within the same step. -/
  consumesOwn : ∀ past consumption future, events = past ++ consumption :: future →
    consumption.turn? handoff = some .consumed →
    ∃ step, underway past = some step ∧ (turns handoff step).getLast? = some .produced

/-! ## Taking turns -/

/-- The turns alternate, and the hand-off is ready if the last of them was a production. -/
structure TakesTurns (turns : List Turn) (ready : Bool) : Prop where
  alternates : Alternates turns
  ready_iff : ready = true ↔ turns.getLast? = some .produced
  count_eq : turns.count .produced = turns.count .consumed + ready.toNat

/-- How a call changes whether a hand-off is ready. -/
inductive Moves : Option Turn → Bool → Bool → Prop where
  | keep {ready : Bool} : Moves none ready ready
  | produce : Moves (some .produced) false true
  | consume : Moves (some .consumed) true false

/-- A turn that is not the last one again may follow; the first one has to be a production. -/
theorem Alternates.concat {turns : List Turn} {turn : Turn} (alternates : Alternates turns)
    (different : turns.getLast? ≠ some turn) (first : turns = [] → turn = .produced) :
    Alternates (turns ++ [turn]) := by
  rcases alternates with ⟨start, chain⟩
  refine ⟨?_, List.isChain_append.mpr ⟨chain, List.isChain_singleton turn, ?_⟩⟩
  · cases turns with
    | nil =>
        simp [first rfl]
    | cons turn turns =>
        exact start
  · intro last isLast next isNext
    cases isNext
    rintro rfl
    exact different isLast

/-- Only what is ready is consumed. -/
theorem Moves.ready {ready after : Bool} (moves : Moves (some .consumed) ready after) :
    ready = true := by
  cases moves
  rfl

theorem takesTurns_nil : TakesTurns [] false := by
  constructor <;> simp [Alternates]

namespace TakesTurns

variable {turns : List Turn}

theorem produce (taken : TakesTurns turns false) : TakesTurns (turns ++ [.produced]) true where
  alternates := by
    have different : turns.getLast? ≠ some .produced := fun last => by
      cases taken.ready_iff.mpr last
    exact taken.alternates.concat different fun _ => rfl
  ready_iff := by simp
  count_eq := by simpa using taken.count_eq

theorem consume (taken : TakesTurns turns true) : TakesTurns (turns ++ [.consumed]) false where
  alternates := by
    have last : turns.getLast? = some .produced := taken.ready_iff.mp rfl
    refine taken.alternates.concat (by simp [last]) ?_
    rintro rfl
    cases last
  ready_iff := by simp
  count_eq := by simpa using taken.count_eq

theorem move {turn : Option Turn} {ready after : Bool} (taken : TakesTurns turns ready)
    (moves : Moves turn ready after) : TakesTurns (turns ++ turn.toList) after := by
  cases moves with
  | keep =>
      rw [Option.toList_none, List.append_nil]
      exact taken
  | produce =>
      exact taken.produce
  | consume =>
      exact taken.consume

end TakesTurns

/-! ## Calls within a step -/

theorem turns_concat {handoff : Handoff} {step : List (Entry α)} {entry : Entry α} :
    turns handoff (step ++ [entry]) = turns handoff step ++ (entry.turn? handoff).toList := by
  rw [turns, List.filterMap_append]
  cases found : entry.turn? handoff <;> simp [turns, found]

/-- Only its own two sides change whether a hand-off is ready, each of them in one way. -/
theorem Effect.moves {before after : StepProtocol α} {call : Call α} {answer : Answer α}
    (effect : Effect before call answer after) (inner : ¬ call.IsBracket) (handoff : Handoff) :
    Moves (Entry.turn? handoff ⟨before.phase, call, answer⟩)
      (before.isReady handoff) (after.isReady handoff) := by
  cases effect with
  | begun outside | ended opened =>
      exact absurd trivial inner
  | requested opened inStep fresh =>
      cases handoff with
      | lagrangianVelocity =>
          rw [isReady, fresh]
          exact .produce
      | constraintForce =>
          exact .keep
  | interpolated opened inStep requested =>
      cases handoff with
      | lagrangianVelocity =>
          rw [isReady, requested]
          exact .consume
      | constraintForce =>
          exact .keep
  | produced opened inStep fresh =>
      cases handoff with
      | lagrangianVelocity =>
          exact .keep
      | constraintForce =>
          rw [isReady, fresh]
          exact .produce
  | spread opened started pending =>
      cases handoff with
      | lagrangianVelocity =>
          exact .keep
      | constraintForce =>
          rw [isReady, pending]
          exact .consume
  | inspected inspects opened =>
      cases call <;> cases inspects <;> cases handoff <;> exact .keep
  | interpolationSkipped opened | spreadingSkipped opened | predicted opened | updated opened
    | recorded opened =>
      cases handoff <;> exact .keep

/-- No side of a hand-off opens or closes a step. -/
theorem inner_of_turn? {handoff : Handoff} {entry : Entry α} {turn : Turn}
    (taken : entry.turn? handoff = some turn) : ¬ entry.call.IsBracket := by
  rcases entry with ⟨phase, call, answer⟩
  cases call with
  | beginStep current new | endStep =>
      cases handoff <;> cases taken
  | _ =>
      exact id

section

variable [Scalar α]

/-- At any time within a step, the hand-offs of the step have taken turns. -/
theorem Leads.takesTurns {start protocol : StepProtocol α} {past step : List (Entry α)}
    (leads : Leads start past protocol) (found : underway past = some step) (handoff : Handoff) :
    TakesTurns (turns handoff step) (protocol.isReady handoff) := by
  refine leads.step_induction (fun _ => True)
    (fun protocol step => TakesTurns (turns handoff step) (protocol.isReady handoff))
    ?_ ?_ (fun _ _ => trivial) found
  · intro before after current new answer effect
    cases effect with
    | begun outside =>
        cases handoff <;> exact takesTurns_nil
    | inspected inspects =>
        cases inspects
  · intro before after step call answer taken _ inner effect
    rw [turns_concat]
    exact taken.move (effect.moves inner handoff)

/-- Over whole runs, whatever is called, both hand-offs take place in turns. -/
theorem handoffs_take_turns (tolerance : α) (calls : List (Call α)) (handoff : Handoff) :
    HandsOver handoff ((initial tolerance).history calls) := by
  constructor
  · intro past future step split found
    rcases exists_leads split with ⟨before, leads⟩
    exact (leads.takesTurns found handoff).alternates
  · intro past closing future split closes
    rcases exists_within split (by simp [closes]) with ⟨before, after, step, leads, found, -⟩
    have balance := (leads.takesTurns found handoff).count_eq
    have bound : (before.isReady handoff).toNat ≤ 1 := Bool.toNat_le _
    exact ⟨step, found, by omega, by omega⟩
  · rintro rfl past closing future split closes
    rcases exists_within split (by simp [closes]) with
      ⟨before, after, step, leads, found, -, effect⟩
    have balance := (leads.takesTurns found .constraintForce).count_eq
    rw [closes] at effect
    rw [isReady, effect.settled_of_endStep.2, Bool.toNat_false, Nat.add_zero] at balance
    exact ⟨step, found, balance⟩
  · intro past consumption future split consumes
    have inner := inner_of_turn? consumes
    have later : ∀ current new, consumption.call ≠ .beginStep current new := by
      intro current new opens
      exact inner (opens ▸ trivial)
    rcases exists_within split later with ⟨before, after, step, leads, found, same, effect⟩
    have moves := effect.moves inner handoff
    rw [same, consumes] at moves
    exact ⟨step, found, (leads.takesTurns found handoff).ready_iff.mp moves.ready⟩

end

/-- A request that is left over when a step is closed is not consumed in the next step. -/
example :
    let calls : List (Call ℚ) :=
      [.beginStep 0 1, .requestInterpolation (1 / 2), .advance .forwardEuler, .produceForce 1,
        .consumeForce, .endStep, .beginStep 1 2, .consumeRequest]
    let events := (initial (1 / 1000)).history calls
    events.length = 8 ∧ turns .lagrangianVelocity events = [.produced] ∧
      turns .constraintForce events = [.produced, .consumed] := by
  decide +kernel

end ImmersedBody.StepProtocol
