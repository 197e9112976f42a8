import ImmersedBody.Proofs.Ranks.Verdict
import ImmersedBody.Ranks.Cluster

/-!
# Schedules of a cluster

The ranks of a cluster move in atomic steps, in any order.  A schedule is a list
of ranks: each in turn takes one atomic step, or looks again in vain if it has
to go on waiting.  Every interleaving of the ranks is a schedule.

What a step means for the collectives is recorded as events.  `Moves` lists all
steps that there are, each with its condition, its events and its effect; the
invariants of later modules are proved by cases on it.
-/

namespace ImmersedBody

/-- What happens to the collectives of a cluster. -/
inductive CollectiveEvent (α : Type) where
  /-- A rank enters the round with a number and contributes to it. -/
  | entered (generation : Nat) (operand : Contribution α)
  /-- A rank that entered a round leaves it with an outcome. -/
  | received (rank generation : Nat) (outcome : Except CollectiveError (Array α))
  /-- A rank is not let into any round. -/
  | refused (rank : Nat) (error : CollectiveError)
  /-- A rank departs, with or without a fault. -/
  | departed (rank : Nat) (failed : Bool)

/-- Whether a collective failed because not all ranks take part any more. -/
def CollectiveError.IsAbandonment : CollectiveError → Prop
  | .mismatch .. => False
  | .missingParticipants .. | .poisoned => True

namespace Participant

variable {α β : Type}

/-- The number of the round that a rank waits for. -/
def waitsFor : Participant α β → Option Nat
  | waiting generation _ _ _ => some generation
  | _ => none

/-- What a rank of its own size gets to see of an outcome. -/
def obtained (n : Nat) (outcome : Except CollectiveError (Array α)) :
    Except CollectiveError (Array α) :=
  (deliver n outcome).map Vector.toArray

/-- What a rank gets to see of a success is a success. -/
theorem deliver_eq_ok_of_obtained {n : Nat} {outcome : Except CollectiveError (Array α)}
    {total : Array α} (seen : obtained n outcome = .ok total) :
    ∃ values : Vector α n, deliver n outcome = .ok values := by
  rw [obtained] at seen
  cases delivered : deliver n outcome with
  | error error =>
      rw [delivered] at seen
      cases seen
  | ok values =>
      exact ⟨values, rfl⟩

variable [Zero α] [Add α]

/-- A rank that contributed to a round gets to see the verdict on it as it is. -/
theorem obtained_verdict {operands : List (Contribution α)} {operand : Contribution α}
    (member : operand ∈ operands) :
    obtained operand.values.size (Contribution.verdict operands) =
      Contribution.verdict operands := by
  rcases Contribution.verdict_cases operands with ⟨length, summed, sizes⟩ | ⟨first, -, other, -, -,
    failed⟩
  · have fits : (Contribution.sum length operands).size = operand.values.size := by
      rw [Contribution.size_sum, sizes operand member]
    rw [summed]
    simp [obtained, deliver, fits, Except.map]
  · rw [failed]
    rfl

/-- What the next step of a rank means for the collectives. -/
def events (fails : β → Bool) (size rank : Nat) (round : Round α) :
    Participant α β → List (CollectiveEvent α)
  | working (.done result) => [.departed rank (fails result)]
  | working (.tell _ _) => []
  | working (.reduce (n := n) tag values _) =>
    match round.enter size rank tag values.toArray with
    | (_, .waits generation) => [.entered generation ⟨rank, tag, values.toArray⟩]
    | (_, .leaves outcome) =>
      if round.poisoned = true ∨ 0 < round.departed then
        match outcome with
        | .error error => [.refused rank error]
        | .ok _ => []
      else
        [.entered round.generation ⟨rank, tag, values.toArray⟩,
          .received rank round.generation (obtained n outcome)]
  | waiting (n := n) generation tag _ _ =>
    match round.lookAgain size tag generation with
    | some (_, outcome) => [.received rank generation (obtained n outcome)]
    | none => []
  | departed _ => []

/-- All steps of a rank, with their events and their effects. -/
inductive Moves (fails : β → Bool) (size rank : Nat) (round : Round α) :
    Participant α β → List (CollectiveEvent α) → Round α → Participant α β → Prop where
  | depart (result : β) :
      Moves fails size rank round (working (.done result)) [.departed rank (fails result)]
        (round.depart (fails result)) (departed result)
  | tell (notice : Notice α) (next : Task α β) :
      Moves fails size rank round (working (.tell notice next)) [] round (working next)
  /-- Nobody is let in any more. -/
  | refuse {n : Nat} (tag : String) (values : Vector α n)
      (next : Except CollectiveError (Vector α n) → Task α β) (error : CollectiveError)
      (closed : round.poisoned = true ∨ 0 < round.departed)
      (abandoned : error.IsAbandonment) :
      Moves fails size rank round (working (.reduce tag values next)) [.refused rank error]
        { round with poisoned := true } (working (next (.error error)))
  /-- The rank is not the last one to enter. -/
  | wait {n : Nat} (tag : String) (values : Vector α n)
      (next : Except CollectiveError (Vector α n) → Task α β)
      (healthy : round.poisoned = false) (present : round.departed = 0)
      (incomplete : round.arrived + 1 ≠ size) :
      Moves fails size rank round (working (.reduce tag values next))
        [.entered round.generation ⟨rank, tag, values.toArray⟩]
        (round.withOperand ⟨rank, tag, values.toArray⟩)
        (waiting round.generation tag values next)
  /-- The rank is the last one to enter and completes the round. -/
  | complete {n : Nat} (tag : String) (values : Vector α n)
      (next : Except CollectiveError (Vector α n) → Task α β)
      (outcome : Except CollectiveError (Array α))
      (healthy : round.poisoned = false) (present : round.departed = 0)
      (last : round.arrived + 1 = size)
      (decided : outcome =
        (round.withOperand ⟨rank, tag, values.toArray⟩).complete.outcome round.generation) :
      Moves fails size rank round (working (.reduce tag values next))
        [.entered round.generation ⟨rank, tag, values.toArray⟩,
          .received rank round.generation (obtained n outcome)]
        (round.withOperand ⟨rank, tag, values.toArray⟩).complete
        (working (next (deliver n outcome)))
  /-- The round has been completed in the meantime. -/
  | collect {n : Nat} (generation : Nat) (tag : String) (values : Vector α n)
      (next : Except CollectiveError (Vector α n) → Task α β)
      (past : round.generation ≠ generation) :
      Moves fails size rank round (waiting generation tag values next)
        [.received rank generation (obtained n (round.outcome generation))] round
        (working (next (deliver n (round.outcome generation))))
  /-- The round cannot be completed any more. -/
  | abandon {n : Nat} (tag : String) (values : Vector α n)
      (next : Except CollectiveError (Vector α n) → Task α β) (error : CollectiveError)
      (hopeless : round.poisoned = true ∨
        (0 < round.departed ∧ size ≤ round.arrived + round.departed))
      (abandoned : error.IsAbandonment) :
      Moves fails size rank round (waiting round.generation tag values next)
        [.received rank round.generation (.error error)]
        { round with poisoned := true } (working (next (.error error)))

/-- Every atomic step is one of those listed. -/
theorem moves_of_step {fails : β → Bool} {size rank : Nat} {round after : Round α}
    {before : Participant α β} {moved : { q : Participant α β // q.Less before }}
    (stepped : before.step fails size rank round = some (after, moved)) :
    Moves fails size rank round before (before.events fails size rank round) after moved.val := by
  cases before with
  | departed result =>
      simp [step] at stepped
  | working task =>
      cases task with
      | done result =>
          simp only [step, Option.some.injEq, Prod.mk.injEq] at stepped
          rcases stepped with ⟨rfl, rfl⟩
          exact .depart result
      | tell notice next =>
          simp only [step, Option.some.injEq, Prod.mk.injEq] at stepped
          rcases stepped with ⟨rfl, rfl⟩
          exact .tell notice next
      | @reduce n tag values next =>
          by_cases poisoned : round.poisoned = true
          · simp only [step, Round.enter, poisoned, if_true, Option.some.injEq,
              Prod.mk.injEq] at stepped
            rcases stepped with ⟨rfl, rfl⟩
            have moves : Moves fails size rank round (working (.reduce tag values next)) _
                { round with poisoned := true } _ :=
              .refuse tag values next .poisoned (Or.inl poisoned) trivial
            have same : { round with poisoned := true } = round := by
              rw [← poisoned]
            rw [same] at moves
            simpa [events, Round.enter, poisoned, deliver] using moves
          · by_cases missing : 0 < round.departed
            · simp only [step, Round.enter, poisoned, Bool.false_eq_true, if_false, missing,
                if_true, Option.some.injEq, Prod.mk.injEq] at stepped
              rcases stepped with ⟨rfl, rfl⟩
              have moves : Moves fails size rank round (working (.reduce tag values next)) _
                  { round with poisoned := true } _ :=
                .refuse tag values next (.missingParticipants tag (round.arrived + 1) size)
                  (Or.inr missing) trivial
              simpa [events, Round.enter, poisoned, missing, deliver] using moves
            · have healthy : round.poisoned = false := by simpa using poisoned
              have present : round.departed = 0 := by omega
              have arrived : ((round.compare rank tag values.toArray).contribute
                  values.toArray).arrived = round.arrived + 1 :=
                Round.arrived_withOperand round ⟨rank, tag, values.toArray⟩
              by_cases last : round.arrived + 1 = size
              · simp only [step, Round.enter, healthy, present, arrived, last, if_true,
                  Bool.false_eq_true, if_false, Nat.lt_irrefl, Option.some.injEq,
                  Prod.mk.injEq] at stepped
                rcases stepped with ⟨rfl, rfl⟩
                have moves : Moves fails size rank round _ _ _ _ :=
                  .complete tag values next _ healthy present last rfl
                simpa [events, Round.enter, Round.withOperand, healthy, present, arrived, last]
                  using moves
              · simp only [step, Round.enter, healthy, present, arrived, last,
                  Bool.false_eq_true, if_false, Nat.lt_irrefl, Option.some.injEq,
                  Prod.mk.injEq] at stepped
                rcases stepped with ⟨rfl, rfl⟩
                have moves : Moves fails size rank round _ _ _ _ :=
                  .wait tag values next healthy present last
                simpa [events, Round.enter, Round.withOperand, healthy, present, arrived, last]
                  using moves
  | @waiting n generation tag values next =>
      by_cases same : round.generation = generation
      · subst same
        by_cases poisoned : round.poisoned = true
        · simp only [step, Round.lookAgain, poisoned, if_true, Option.some.injEq,
            Prod.mk.injEq] at stepped
          rcases stepped with ⟨rfl, rfl⟩
          have moves : Moves fails size rank round
              (waiting round.generation tag values next) _ { round with poisoned := true } _ :=
            .abandon tag values next .poisoned (Or.inl poisoned) trivial
          have same : { round with poisoned := true } = round := by
            rw [← poisoned]
          rw [same] at moves
          simpa [events, Round.lookAgain, poisoned, obtained, deliver, Except.map] using moves
        · by_cases missing : 0 < round.departed ∧ size ≤ round.arrived + round.departed
          · simp only [step, Round.lookAgain, poisoned, Bool.false_eq_true, if_false, missing,
              and_self, if_true, Option.some.injEq, Prod.mk.injEq] at stepped
            rcases stepped with ⟨rfl, rfl⟩
            have moves : Moves fails size rank round
                (waiting round.generation tag values next) _ { round with poisoned := true } _ :=
              .abandon tag values next (.missingParticipants tag round.arrived size)
                (Or.inr missing) trivial
            simpa [events, Round.lookAgain, poisoned, missing, obtained, deliver, Except.map]
              using moves
          · simp [step, Round.lookAgain, poisoned, missing] at stepped
      · simp only [step, Round.lookAgain, same, if_false, Option.some.injEq,
          Prod.mk.injEq] at stepped
        rcases stepped with ⟨rfl, rfl⟩
        have moves : Moves fails size rank round (waiting generation tag values next) _ round _ :=
          .collect generation tag values next same
        simpa [events, Round.lookAgain, same] using moves

end Participant

namespace Cluster

variable {α β : Type}

/-- The number of the round that a rank waits for. -/
def waitsFor (cluster : Cluster α β) (rank : Nat) : Option Nat :=
  cluster.ranks[rank]?.bind Participant.waitsFor

variable [Zero α] [Add α]

/-- The atomic step of a rank with its events, if the rank can take one. -/
def move (fails : β → Bool) (rank : Nat) (cluster : Cluster α β) :
    Option (List (CollectiveEvent α) × Cluster α β) :=
  match cluster.ranks[rank]? with
  | none => none
  | some before =>
    match before.step fails cluster.ranks.length rank cluster.round with
    | none => none
    | some (round, ⟨after, _⟩) =>
      some (before.events fails cluster.ranks.length rank cluster.round,
        ⟨round, cluster.ranks.set rank after⟩)

/-- What a schedule leads to, with all events in their order. -/
def follow (fails : β → Bool) :
    List Nat → List (CollectiveEvent α) × Cluster α β → List (CollectiveEvent α) × Cluster α β
  | [], history => history
  | rank :: schedule, (events, cluster) =>
    match cluster.move fails rank with
    | none => follow fails schedule (events, cluster)
    | some (new, after) => follow fails schedule (events ++ new, after)

/-- What a schedule leads to from the start. -/
def history (fails : β → Bool) (size : Nat) (task : Seat → Task α β) (schedule : List Nat) :
    List (CollectiveEvent α) × Cluster α β :=
  follow fails schedule ([], start size task)

/-- A schedule that is continued goes on from what it has led to. -/
theorem follow_append (fails : β → Bool) (schedule more : List Nat)
    (before : List (CollectiveEvent α) × Cluster α β) :
    follow fails (schedule ++ more) before = follow fails more (follow fails schedule before) := by
  induction schedule generalizing before with
  | nil =>
      rfl
  | cons rank schedule ih =>
      rcases before with ⟨events, cluster⟩
      rw [List.cons_append, follow, follow]
      cases cluster.move fails rank with
      | none =>
          exact ih (events, cluster)
      | some step =>
          exact ih (events ++ step.1, step.2)

/-- A step of a cluster is one of the steps of one of its ranks. -/
theorem moves_of_move {fails : β → Bool} {rank : Nat} {cluster after : Cluster α β}
    {new : List (CollectiveEvent α)} (moved : cluster.move fails rank = some (new, after)) :
    ∃ before round participant, cluster.ranks[rank]? = some before ∧
      Participant.Moves fails cluster.ranks.length rank cluster.round before new round
        participant ∧
      after = ⟨round, cluster.ranks.set rank participant⟩ := by
  unfold move at moved
  cases found : cluster.ranks[rank]? with
  | none =>
      simp [found] at moved
  | some before =>
      cases stepped : before.step fails cluster.ranks.length rank cluster.round with
      | none =>
          simp [found, stepped] at moved
      | some outcome =>
          simp only [found, stepped, Option.some.injEq, Prod.mk.injEq] at moved
          rcases moved with ⟨rfl, rfl⟩
          exact ⟨before, outcome.1, outcome.2.val, rfl, Participant.moves_of_step stepped, rfl⟩

/-- What holds at the start and is preserved by every step holds after every schedule. -/
theorem history_induction {fails : β → Bool} {size : Nat} {task : Seat → Task α β}
    {property : List (CollectiveEvent α) → Cluster α β → Prop}
    (initial : property [] (start size task))
    (preserved : ∀ events cluster rank new after, property events cluster →
      cluster.move fails rank = some (new, after) → property (events ++ new) after)
    (schedule : List Nat) :
    property (history fails size task schedule).1 (history fails size task schedule).2 := by
  have general : ∀ schedule events cluster, property events cluster →
      property (follow fails schedule (events, cluster)).1
        (follow fails schedule (events, cluster)).2 := by
    intro schedule
    induction schedule with
    | nil =>
        exact fun _ _ holds => holds
    | cons rank schedule ih =>
        intro events cluster holds
        unfold follow
        cases moved : cluster.move fails rank with
        | none =>
            exact ih events cluster holds
        | some step =>
            exact ih _ _ (preserved events cluster rank step.1 step.2 holds moved)
  exact general schedule [] (start size task) initial

/-! ## Runs as schedules -/

/-- The first rank that can move moves. -/
theorem moveFirst_eq_some {fails : β → Bool} {size : Nat} {round : Round α}
    {ranks : List (Participant α β)} :
    ∀ {first : Nat} {step}, moveFirst fails size round first ranks = some step →
      ∃ index before after, ranks[index]? = some before ∧
        before.step fails size (first + index) round = some (step.1, after) ∧
        step.2.val = ranks.set index after.val := by
  induction ranks with
  | nil =>
      intro first step moved
      cases moved
  | cons participant rest ih =>
      intro first step moved
      rw [moveFirst] at moved
      cases stepped : participant.step fails size first round with
      | some outcome =>
          simp only [stepped, Option.some.injEq] at moved
          exact ⟨0, participant, outcome.2, rfl, by rw [← moved, Nat.add_zero, stepped],
            by rw [← moved]; rfl⟩
      | none =>
          cases later : moveFirst fails size round (first + 1) rest with
          | none =>
              simp [stepped, later] at moved
          | some outcome =>
              simp only [stepped, later, Option.some.injEq] at moved
              rcases ih later with ⟨index, before, after, found, stepped, result⟩
              refine ⟨index + 1, before, after, found, ?_, ?_⟩
              · rw [← moved, Nat.add_comm index 1, ← Nat.add_assoc]
                exact stepped
              · rw [← moved]
                simp [result]

/-- Otherwise no rank can. -/
theorem moveFirst_eq_none {fails : β → Bool} {size : Nat} {round : Round α}
    {ranks : List (Participant α β)} :
    ∀ {first : Nat}, moveFirst fails size round first ranks = none →
      ∀ (index : Nat) (before : Participant α β), ranks[index]? = some before →
        before.step fails size (first + index) round = none := by
  induction ranks with
  | nil =>
      intro first stuck index before found
      cases found
  | cons participant rest ih =>
      intro first stuck index before found
      rw [moveFirst] at stuck
      cases stepped : participant.step fails size first round with
      | some outcome =>
          simp [stepped] at stuck
      | none =>
          cases later : moveFirst fails size round (first + 1) rest with
          | some outcome =>
              simp [stepped, later] at stuck
          | none =>
              cases index with
              | zero =>
                  cases found
                  exact stepped
              | succ index =>
                  rw [Nat.add_comm index 1, ← Nat.add_assoc]
                  exact ih later index before found

/-- A cluster settles along one of its schedules, until no rank can move any more. -/
theorem exists_schedule_of_settle (fails : β → Bool) (cluster : Cluster α β) :
    ∀ events : List (CollectiveEvent α), ∃ schedule,
      (follow fails schedule (events, cluster)).2 = settle fails cluster ∧
        ∀ rank, (settle fails cluster).move fails rank = none := by
  fun_induction settle fails cluster with
  | case1 cluster round ranks fewer moved ih =>
      intro events
      rcases moveFirst_eq_some moved with ⟨rank, before, after, found, stepped, result⟩
      rw [Nat.zero_add] at stepped
      simp only at stepped result
      have step : cluster.move fails rank =
          some (before.events fails cluster.ranks.length rank cluster.round, ⟨round, ranks⟩) := by
        simp [move, found, stepped, result]
      rcases ih (events ++ before.events fails cluster.ranks.length rank cluster.round) with
        ⟨schedule, reached, stuck⟩
      refine ⟨rank :: schedule, ?_, stuck⟩
      simp only [follow, step]
      exact reached
  | case2 cluster stuck =>
      intro events
      refine ⟨[], rfl, ?_⟩
      intro rank
      rw [move]
      cases found : cluster.ranks[rank]? with
      | none =>
          rfl
      | some before =>
          have still := moveFirst_eq_none stuck rank before found
          rw [Nat.zero_add] at still
          simp [still]

/-! ## Positions of the ranks -/

omit [Zero α] [Add α] in
theorem waitsFor_eq_of_getElem? {cluster : Cluster α β} {rank : Nat}
    {participant : Participant α β} (found : cluster.ranks[rank]? = some participant) :
    cluster.waitsFor rank = participant.waitsFor := by
  simp [waitsFor, found]

omit [Zero α] [Add α] in
/-- A step of one rank does not change the positions of the others. -/
theorem waitsFor_set {cluster : Cluster α β} {rank other : Nat} {round : Round α}
    {participant : Participant α β} (inside : rank < cluster.ranks.length) :
    waitsFor ⟨round, cluster.ranks.set rank participant⟩ other =
      if other = rank then participant.waitsFor else cluster.waitsFor other := by
  by_cases same : other = rank
  · subst other
    simp [waitsFor, inside]
  · simp [waitsFor, same, List.getElem?_set_ne (Ne.symm same)]

end Cluster

namespace CollectiveEvent

variable {α : Type}

/-! ## What events say about a round -/

/-- The operands of a round, in the order of their arrival. -/
def operands (generation : Nat) (events : List (CollectiveEvent α)) : List (Contribution α) :=
  events.filterMap fun
    | entered entry operand => if entry = generation then some operand else none
    | _ => none

/-- The outcomes with which a rank left a round. -/
def receipts (rank generation : Nat) (events : List (CollectiveEvent α)) :
    List (Except CollectiveError (Array α)) :=
  events.filterMap fun
    | received leaver left outcome =>
      if leaver = rank ∧ left = generation then some outcome else none
    | _ => none

@[simp]
theorem operands_append (generation : Nat) (events new : List (CollectiveEvent α)) :
    operands generation (events ++ new) = operands generation events ++ operands generation new :=
  List.filterMap_append

@[simp]
theorem receipts_append (rank generation : Nat) (events new : List (CollectiveEvent α)) :
    receipts rank generation (events ++ new) =
      receipts rank generation events ++ receipts rank generation new :=
  List.filterMap_append

theorem operands_singleton (generation entry : Nat) (operand : Contribution α) :
    operands generation [entered entry operand] =
      if entry = generation then [operand] else [] := by
  by_cases same : entry = generation <;> simp [operands, same]

theorem receipts_singleton (rank generation leaver left : Nat)
    (outcome : Except CollectiveError (Array α)) :
    receipts rank generation [received leaver left outcome] =
      if leaver = rank ∧ left = generation then [outcome] else [] := by
  by_cases same : leaver = rank ∧ left = generation <;> simp [receipts, same]

theorem mem_operands_iff {generation : Nat} {events : List (CollectiveEvent α)}
    {operand : Contribution α} :
    operand ∈ operands generation events ↔ entered generation operand ∈ events := by
  simp only [operands, List.mem_filterMap]
  constructor
  · rintro ⟨event, member, found⟩
    cases event with
    | entered entry contribution =>
        simp only [Option.ite_none_right_eq_some, Option.some.injEq] at found
        rcases found with ⟨rfl, rfl⟩
        exact member
    | received | refused | departed =>
        cases found
  · intro member
    exact ⟨entered generation operand, member, by simp⟩

theorem mem_receipts_iff {rank generation : Nat} {events : List (CollectiveEvent α)}
    {outcome : Except CollectiveError (Array α)} :
    outcome ∈ receipts rank generation events ↔ received rank generation outcome ∈ events := by
  simp only [receipts, List.mem_filterMap]
  constructor
  · rintro ⟨event, member, found⟩
    cases event with
    | received leaver left result =>
        simp only [Option.ite_none_right_eq_some, Option.some.injEq] at found
        rcases found with ⟨⟨rfl, rfl⟩, rfl⟩
        exact member
    | entered | refused | departed =>
        cases found
  · intro member
    exact ⟨received rank generation outcome, member, by simp⟩

end CollectiveEvent

end ImmersedBody
