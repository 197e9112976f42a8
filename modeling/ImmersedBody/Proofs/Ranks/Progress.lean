import ImmersedBody.Proofs.Ranks.Departures

/-!
# Progress of a cluster

The main theorem is `every_history_progresses`.  Whatever the tasks of the ranks
are and in whatever order the ranks move, no rank waits forever; a round is
abandoned only after a rank has departed; and if all ranks issue the same
collectives and none fails, every collective succeeds on every rank.
-/

namespace ImmersedBody

/--
Whether a task issues collectives with the given tags and lengths, in this
order, as long as they succeed, and then ends without a fault.
-/
def Task.Issues {α β : Type} (fails : β → Bool) : Task α β → List (String × Nat) → Prop
  | .done result, collectives => collectives = [] ∧ fails result = false
  | .tell _ next, collectives => next.Issues fails collectives
  | .reduce (n := n) tag _ next, collectives =>
    ∃ rest, collectives = (tag, n) :: rest ∧ ∀ total, (next (.ok total)).Issues fails rest

/-- Where a rank stands that issues given collectives, when so many of them are completed. -/
def Participant.Follows {α β : Type} (fails : β → Bool) (collectives : List (String × Nat))
    (completed : Nat) : Participant α β → Prop
  | working task => task.Issues fails (collectives.drop completed)
  | waiting (n := n) generation tag _ next =>
    ∃ rest, collectives.drop generation = (tag, n) :: rest ∧
      ∀ total, (next (.ok total)).Issues fails rest
  | departed _ => collectives.drop completed = []

/-- An event of ranks that issue given collectives, all of which succeed. -/
def CollectiveEvent.IsRegular {α : Type} (collectives : List (String × Nat)) :
    CollectiveEvent α → Prop
  | entered generation operand =>
    collectives[generation]? = some (operand.tag, operand.values.size)
  | received _ _ outcome => ∃ total, outcome = .ok total
  | refused _ _ => False
  | departed _ failed => failed = false

theorem CollectiveEvent.IsRegular.failure?_eq_none {α : Type}
    {collectives : List (String × Nat)} {event : CollectiveEvent α}
    (regular : event.IsRegular collectives) : event.failure? = none := by
  cases event with
  | entered | departed =>
      rfl
  | received rank generation outcome =>
      rcases regular with ⟨total, rfl⟩
      rfl
  | refused rank error =>
      exact regular.elim

namespace Cluster

open CollectiveEvent Contribution

variable {α β : Type}

/-- All ranks issue the same collectives, and none of these has failed. -/
structure Unanimous (fails : β → Bool) (collectives : List (String × Nat))
    (events : List (CollectiveEvent α)) (cluster : Cluster α β) : Prop where
  healthy : cluster.round.poisoned = false
  /-- No rank departs before all collectives are completed. -/
  complete : 0 < cluster.round.departed → collectives.drop cluster.round.generation = []
  follows : ∀ (rank : Nat) (participant : Participant α β), cluster.ranks[rank]? = some participant →
    participant.Follows fails collectives cluster.round.generation
  regular : ∀ event ∈ events, event.IsRegular collectives

theorem unanimous_start {fails : β → Bool} {collectives : List (String × Nat)} {size : Nat}
    {task : Seat → Task α β}
    (same : ∀ seat : Seat, seat.size = size → (task seat).Issues fails collectives) :
    Unanimous fails collectives [] (start size task) where
  healthy := rfl
  complete := by
    intro missing
    cases missing
  follows := by
    intro rank participant found
    rcases List.getElem?_eq_some_iff.mp found with ⟨inside, rfl⟩
    simp only [start, List.getElem_map]
    exact same _ rfl
  regular := by
    rintro event ⟨⟩

theorem head_of_drop {collectives rest : List (String × Nat)} {generation : Nat}
    {issue : String × Nat} (next : collectives.drop generation = issue :: rest) :
    collectives[generation]? = some issue := by
  rw [← List.head?_drop, next]
  rfl

theorem tail_of_drop {collectives rest : List (String × Nat)} {generation : Nat}
    {issue : String × Nat} (next : collectives.drop generation = issue :: rest) :
    collectives.drop (generation + 1) = rest := by
  rw [← List.tail_drop, next]
  rfl

variable [Zero α] [Add α]

/-- Operands of the same collective have a sum as their verdict. -/
theorem verdict_ok_of_issued {collectives : List (String × Nat)} {generation : Nat}
    {contributions : List (Contribution α)} (nonempty : contributions ≠ [])
    (issued : ∀ operand ∈ contributions,
      collectives[generation]? = some (operand.tag, operand.values.size)) :
    ∃ total, verdict contributions = .ok total := by
  rcases List.exists_mem_of_ne_nil _ nonempty with ⟨first, member⟩
  have agreement : ∀ operand ∈ contributions,
      operand.tag = first.tag ∧ operand.values.size = first.values.size := by
    intro operand found
    have same := issued operand found
    rw [issued first member, Option.some.injEq, Prod.mk.injEq] at same
    exact ⟨same.1.symm, same.2.symm⟩
  exact ⟨_, verdict_eq_ok_of_agreement nonempty agreement⟩

namespace Unanimous

variable {fails : β → Bool} {collectives : List (String × Nat)} {size : Nat}
  {events : List (CollectiveEvent α)} {cluster : Cluster α β}

omit [Zero α] [Add α] in
/-- No rank is turned away and no rank gives up while collectives are left. -/
theorem not_closed (unanimous : Unanimous fails collectives events cluster)
    {issue : String × Nat} {rest : List (String × Nat)}
    (left : collectives.drop cluster.round.generation = issue :: rest) :
    ¬ (cluster.round.poisoned = true ∨ 0 < cluster.round.departed) := by
  rintro (broken | missing)
  · rw [unanimous.healthy] at broken
    cases broken
  · rw [unanimous.complete missing] at left
    cases left

omit [Zero α] [Add α] in
/-- A step by which no round is completed. -/
theorem withoutCompletion (unanimous : Unanimous fails collectives events cluster) {rank : Nat}
    {round : Round α} {after : Participant α β} {new : List (CollectiveEvent α)}
    (sameRound : round.generation = cluster.round.generation)
    (healthy : round.poisoned = false)
    (complete : 0 < round.departed → collectives.drop cluster.round.generation = [])
    (own : after.Follows fails collectives cluster.round.generation)
    (regular : ∀ event ∈ new, event.IsRegular collectives) :
    Unanimous fails collectives (events ++ new) ⟨round, cluster.ranks.set rank after⟩ where
  healthy := healthy
  complete := by
    rw [sameRound]
    exact complete
  follows := by
    intro other participant found
    simp only at found
    rw [sameRound]
    by_cases same : rank = other
    · subst other
      by_cases inside : rank < cluster.ranks.length
      · rw [List.getElem?_set_self inside, Option.some.injEq] at found
        rw [← found]
        exact own
      · rw [List.getElem?_eq_none (by simpa using inside)] at found
        cases found
    · rw [List.getElem?_set_ne same] at found
      exact unanimous.follows other participant found
  regular := List.forall_mem_append.mpr ⟨unanimous.regular, regular⟩

/-- The operands of a round agree, so that their verdict is a sum. -/
theorem verdict_ok (unanimous : Unanimous fails collectives events cluster) {generation : Nat}
    (nonempty : operands generation events ≠ []) :
    ∃ total, verdict (operands generation events) = .ok total := by
  apply verdict_ok_of_issued nonempty
  intro operand member
  exact unanimous.regular _ (mem_operands_iff.mp member)

/-- The last rank to enter a round completes it with a sum. -/
theorem complete_ok (unanimous : Unanimous fails collectives events cluster)
    (operand : Contribution α)
    (issued : collectives[cluster.round.generation]? =
      some (operand.tag, operand.values.size)) :
    ∃ total, verdict (operands cluster.round.generation events ++ [operand]) = .ok total := by
  apply verdict_ok_of_issued (List.append_ne_nil_of_right_ne_nil _ (List.cons_ne_nil _ _))
  intro other member
  rcases List.mem_append.mp member with earlier | now
  · exact unanimous.regular _ (mem_operands_iff.mp earlier)
  · rw [List.mem_singleton.mp now]
    exact issued

/-- The rank that enters last completes the round and goes on with its sum. -/
theorem completion (unanimous : Unanimous fails collectives events cluster)
    (coherent : Coherent size events cluster) {rank n : Nat} {tag : String} {values : Vector α n}
    {next : Except CollectiveError (Vector α n) → Task α β}
    {outcome : Except CollectiveError (Array α)} (inside : rank < cluster.ranks.length)
    (idle : cluster.waitsFor rank = none) (present : cluster.round.departed = 0)
    (last : cluster.round.arrived + 1 = size)
    (decided : outcome =
      (cluster.round.withOperand ⟨rank, tag, values.toArray⟩).complete.outcome
        cluster.round.generation)
    (follows : Participant.Follows fails collectives cluster.round.generation
      (.working (.reduce tag values next))) :
    Unanimous fails collectives
      (events ++ [entered cluster.round.generation ⟨rank, tag, values.toArray⟩,
        received rank cluster.round.generation (Participant.obtained n outcome)])
      ⟨(cluster.round.withOperand ⟨rank, tag, values.toArray⟩).complete,
        cluster.ranks.set rank (.working (next (Participant.deliver n outcome)))⟩ := by
  rcases follows with ⟨rest, left, goesOn⟩
  have issued : collectives[cluster.round.generation]? = some (tag, values.toArray.size) := by
    rw [head_of_drop left, Vector.size_toArray]
  rcases unanimous.complete_ok ⟨rank, tag, values.toArray⟩ issued with ⟨total, summed⟩
  have seen := coherent.obtained_complete decided
  rw [summed] at seen
  rcases Participant.deliver_eq_ok_of_obtained seen with ⟨sum, delivered⟩
  have newGeneration :
      (cluster.round.withOperand ⟨rank, tag, values.toArray⟩).complete.generation =
        cluster.round.generation + 1 := by
    rw [Round.complete, Round.generation_withOperand]
  exact {
    healthy := by
      rw [Round.complete, Round.poisoned_withOperand]
      exact unanimous.healthy
    complete := by
      intro missing
      rw [Round.complete, Round.departed_withOperand, present] at missing
      cases missing
    follows := by
      intro other participant standing
      rw [newGeneration]
      by_cases same : rank = other
      · subst other
        rw [List.getElem?_set_self inside, Option.some.injEq] at standing
        rw [← standing, delivered]
        show (next (.ok sum)).Issues fails (collectives.drop (cluster.round.generation + 1))
        rw [tail_of_drop left]
        exact goesOn sum
      · -- everybody else waits for the completed round
        rw [List.getElem?_set_ne same] at standing
        have below : other < size := by
          rw [← coherent.length_eq]
          exact (List.getElem?_eq_some_iff.mp standing).1
        have waits := coherent.others_wait inside idle unanimous.healthy last other below
          (Ne.symm same)
        rw [waitsFor_eq_of_getElem? standing] at waits
        have before := unanimous.follows other participant standing
        cases participant with
        | waiting generation otherTag otherValues otherNext =>
            exact before
        | working | departed =>
            cases waits
    regular := by
      refine List.forall_mem_append.mpr ⟨unanimous.regular, ?_⟩
      intro event member
      rw [seen, List.mem_pair] at member
      rcases member with rfl | rfl
      · exact issued
      · exact ⟨total, rfl⟩ }

/-- A rank that is late for a completed round goes on with its sum. -/
theorem collection (unanimous : Unanimous fails collectives events cluster)
    (coherent : Coherent size events cluster) {rank n generation : Nat} {tag : String}
    {values : Vector α n} {next : Except CollectiveError (Vector α n) → Task α β}
    (found : cluster.ranks[rank]? = some (.waiting generation tag values next))
    (past : cluster.round.generation ≠ generation) :
    Unanimous fails collectives
      (events ++ [received rank generation
        (Participant.obtained n (cluster.round.outcome generation))])
      ⟨cluster.round, cluster.ranks.set rank
        (.working (next (Participant.deliver n (cluster.round.outcome generation))))⟩ := by
  rcases unanimous.follows rank _ found with ⟨rest, left, goesOn⟩
  have joined := coherent.joined rank n generation tag values next found
  rcases unanimous.verdict_ok (List.ne_nil_of_mem joined) with ⟨total, summed⟩
  have seen := coherent.obtained_over found past
  rw [summed] at seen
  rcases Participant.deliver_eq_ok_of_obtained seen with ⟨sum, delivered⟩
  rcases coherent.kept rank generation (waitsFor_eq_of_getElem? found) (Ne.symm past) with
    ⟨previous, -⟩
  apply unanimous.withoutCompletion
  · rfl
  · exact unanimous.healthy
  · exact unanimous.complete
  · rw [delivered]
    show (next (.ok sum)).Issues fails (collectives.drop cluster.round.generation)
    rw [← previous, tail_of_drop left]
    exact goesOn sum
  · intro event member
    rw [seen, List.mem_singleton] at member
    rw [member]
    exact ⟨total, rfl⟩

/-- Every step of every rank keeps the ranks unanimous. -/
theorem move (unanimous : Unanimous fails collectives events cluster)
    (coherent : Coherent size events cluster) {rank : Nat} {new : List (CollectiveEvent α)}
    {after : Cluster α β} (moved : cluster.move fails rank = some (new, after)) :
    Unanimous fails collectives (events ++ new) after := by
  rcases moves_of_move moved with ⟨before, round, participant, found, moves, rfl⟩
  have inside : rank < cluster.ranks.length := (List.getElem?_eq_some_iff.mp found).1
  have position := waitsFor_eq_of_getElem? found
  have follows := unanimous.follows rank before found
  cases moves with
  | depart result =>
      rcases follows with ⟨finished, faultless⟩
      apply unanimous.withoutCompletion
      · rfl
      · rw [Round.depart, unanimous.healthy, faultless]
        rfl
      · exact fun _ => finished
      · exact finished
      · intro event member
        rw [List.mem_singleton.mp member]
        exact faultless
  | tell notice next =>
      apply unanimous.withoutCompletion
      · rfl
      · exact unanimous.healthy
      · exact unanimous.complete
      · exact follows
      · rintro event ⟨⟩
  | refuse tag values next error closed abandoned =>
      rcases follows with ⟨rest, left, -⟩
      exact absurd closed (unanimous.not_closed left)
  | @wait n tag values next healthy present incomplete =>
      rcases follows with ⟨rest, left, goesOn⟩
      apply unanimous.withoutCompletion
      · exact Round.generation_withOperand _ _
      · rw [Round.poisoned_withOperand]
        exact healthy
      · rw [Round.departed_withOperand]
        exact unanimous.complete
      · exact ⟨rest, left, goesOn⟩
      · intro event member
        rw [List.mem_singleton.mp member]
        show collectives[cluster.round.generation]? = some (tag, values.toArray.size)
        rw [head_of_drop left, Vector.size_toArray]
  | complete tag values next outcome healthy present last decided =>
      rw [coherent.length_eq] at last
      exact unanimous.completion coherent inside position present last decided follows
  | collect generation tag values next past =>
      exact unanimous.collection coherent found past
  | abandon tag values next error hopeless abandoned =>
      rcases follows with ⟨rest, left, -⟩
      exact absurd (hopeless.imp_right And.left) (unanimous.not_closed left)

end Unanimous

/-- Ranks that issue the same collectives stay unanimous under every schedule. -/
theorem unanimous_history {fails : β → Bool} {collectives : List (String × Nat)} {size : Nat}
    {task : Seat → Task α β}
    (same : ∀ seat : Seat, seat.size = size → (task seat).Issues fails collectives)
    (schedule : List Nat) :
    Unanimous fails collectives (history fails size task schedule).1
      (history fails size task schedule).2 := by
  apply coherent_history_induction (unanimous_start same)
  intro events cluster rank new after coherent unanimous moved
  exact unanimous.move coherent moved

/-- When unanimous ranks have all departed, they have got the sums of all their rounds. -/
theorem all_received_of_departed {fails : β → Bool} {collectives : List (String × Nat)}
    {size : Nat} {events : List (CollectiveEvent α)} {cluster : Cluster α β}
    (unanimous : Unanimous fails collectives events cluster)
    (coherent : Coherent size events cluster)
    (ended : ∀ rank < size, ∃ result, cluster.ranks[rank]? = some (.departed result)) :
    ∀ rank < size, ∀ generation < collectives.length,
      ∃ total, receipts rank generation events = [.ok total] := by
  intro rank below generation issued
  rcases ended rank below with ⟨result, left⟩
  have finished : collectives.length ≤ cluster.round.generation :=
    List.drop_eq_nil_iff.mp (unanimous.follows rank _ left)
  have past : generation < cluster.round.generation := Nat.lt_of_lt_of_le issued finished
  have got := coherent.settled generation past rank below
  rw [waitsFor_eq_of_getElem? left, if_neg nofun] at got
  have entered : operands generation events ≠ [] := by
    intro empty
    have everyone := (coherent.everyone generation past).length_eq
    rw [empty, List.map_nil, List.length_nil, List.length_range] at everyone
    omega
  rcases unanimous.verdict_ok entered with ⟨total, summed⟩
  rw [summed] at got
  exact ⟨total, got⟩

/-- Every schedule can be continued until no rank can move any more. -/
theorem exists_history_of_settle (fails : β → Bool) (size : Nat) (task : Seat → Task α β)
    (schedule : List Nat) :
    ∃ more, (history fails size task (schedule ++ more)).2 =
        settle fails (history fails size task schedule).2 ∧
      ∀ rank, ¬ (history fails size task (schedule ++ more)).2.CanMove rank := by
  rcases exists_schedule_of_settle fails (history fails size task schedule).2
    (history fails size task schedule).1 with ⟨more, reached, stuck⟩
  have joined : (history fails size task (schedule ++ more)).2 =
      settle fails (history fails size task schedule).2 := by
    rw [history, follow_append]
    exact reached
  refine ⟨more, joined, ?_⟩
  intro rank able
  have moves : ((history fails size task (schedule ++ more)).2.move fails rank).isSome :=
    move_isSome_of_canMove able
  rw [joined, stuck] at moves
  cases moves

/-- A run ends with all ranks departed. -/
theorem settle_all_departed (fails : β → Bool) (size : Nat) (task : Seat → Task α β) :
    ∀ rank < size, ∃ result,
      (settle fails (start size task)).ranks[rank]? = some (.departed result) := by
  rcases exists_history_of_settle fails size task [] with ⟨schedule, reached, stuck⟩
  have departed := all_departed_of_stuck (coherent_history fails size task schedule)
    (accounted_history fails size task schedule) stuck
  rw [List.nil_append] at reached
  rwa [reached] at departed

/-- The guarantees of a cluster about its progress and about the causes of failures. -/
structure Progresses (fails : β → Bool) (size : Nat) (task : Seat → Task α β)
    (events : List (CollectiveEvent α)) (cluster : Cluster α β) : Prop where
  /-- As long as some rank waits, some rank can take a step. -/
  live : ∀ rank generation, cluster.waitsFor rank = some generation →
    ∃ other, cluster.CanMove other ∧ (cluster.move fails other).isSome
  /-- No rank can take a step only when all have departed. -/
  ended : (∀ rank, ¬ cluster.CanMove rank) →
    ∀ rank < size, ∃ result, cluster.ranks[rank]? = some (.departed result)
  /-- A round is abandoned only after some rank has departed, with or without a fault. -/
  blamed : ∀ before event after error, events = before ++ event :: after →
    event.failure? = some error → error.IsAbandonment →
      ∃ rank failed, departed rank failed ∈ before
  /-- If all ranks issue the same collectives and none fails, all collectives succeed. -/
  unanimous : ∀ collectives,
    (∀ seat : Seat, seat.size = size → (task seat).Issues fails collectives) →
      (∀ event ∈ events, event.failure? = none) ∧
        ((∀ rank, ¬ cluster.CanMove rank) → ∀ rank < size,
          ∀ generation < collectives.length,
            ∃ total, receipts rank generation events = [.ok total])

/--
For all tasks of the ranks and under every schedule: there is no deadlock, and
collectives fail only for a reason.
-/
theorem every_history_progresses (fails : β → Bool) (size : Nat) (task : Seat → Task α β)
    (schedule : List Nat) :
    Progresses fails size task (history fails size task schedule).1
      (history fails size task schedule).2 := by
  have coherent := coherent_history fails size task schedule
  have accounted := accounted_history fails size task schedule
  exact {
    live := by
      intro rank generation waits
      rcases exists_canMove_of_waits coherent accounted waits with ⟨other, able⟩
      exact ⟨other, able, move_isSome_of_canMove able⟩
    ended := all_departed_of_stuck coherent accounted
    blamed := by
      intro before event after error split failed abandoned
      apply exists_departed_of_departures
      exact accounted.blamed before event after error split failed abandoned
    unanimous := by
      intro collectives same
      have unanimous := unanimous_history same schedule
      constructor
      · intro event member
        exact (unanimous.regular event member).failure?_eq_none
      · intro stuck
        apply all_received_of_departed unanimous coherent
        exact all_departed_of_stuck coherent accounted stuck }

end Cluster

end ImmersedBody
