import ImmersedBody.Proofs.Ranks.Schedule
import Mathlib.Data.List.Perm.Subperm
import Mathlib.Data.List.Range

/-!
# Coherence of a cluster with its history

One `Round` serves all rounds of a cluster.  While it collects the operands of a
round, slow ranks may still have to collect the outcome of the round before.
`Coherent` relates what the ranks share, where each of them stands, and what has
happened so far.  It holds at the start and is preserved by every step of every
rank, so it holds after every schedule.
-/

namespace ImmersedBody.Cluster

open CollectiveEvent Contribution

variable {α β : Type} [Zero α] [Add α]

/-- The shared state and the positions of the ranks fit the events so far. -/
structure Coherent (size : Nat) (events : List (CollectiveEvent α)) (cluster : Cluster α β) :
    Prop where
  length_eq : cluster.ranks.length = size
  /-- The shared state holds the operands of the current round and no others. -/
  holds : cluster.round.Holds (operands cluster.round.generation events)
  /-- The current round waits for more ranks to enter. -/
  incomplete : 0 < size → cluster.round.arrived < size
  /-- No rank enters the current round twice. -/
  distinct : ((operands cluster.round.generation events).map Contribution.rank).Nodup
  bounded : ∀ operand ∈ operands cluster.round.generation events, operand.rank < size
  /-- All ranks have entered the rounds that were completed, once each. -/
  everyone : ∀ generation < cluster.round.generation,
    ((operands generation events).map Contribution.rank).Perm (List.range size)
  /-- Later rounds have not begun. -/
  unborn : ∀ generation > cluster.round.generation, operands generation events = []
  /-- As long as no rank has failed, whoever entered the current round waits for it. -/
  present : cluster.round.poisoned = false →
    ∀ operand ∈ operands cluster.round.generation events,
      cluster.waitsFor operand.rank = some cluster.round.generation
  /-- A rank that waits has contributed to the round that it waits for. -/
  joined : ∀ rank n generation tag (values : Vector α n) next,
    cluster.ranks[rank]? = some (.waiting generation tag values next) →
      ⟨rank, tag, values.toArray⟩ ∈ operands generation events
  /-- The outcome of the round before is kept for ranks that still wait for it. -/
  kept : ∀ rank generation, cluster.waitsFor rank = some generation →
    generation ≠ cluster.round.generation →
      generation + 1 = cluster.round.generation ∧
        cluster.round.completed = some (generation, verdict (operands generation events))
  /-- All ranks but those that still wait have got the verdict on a completed round, once. -/
  settled : ∀ generation < cluster.round.generation, ∀ rank < size,
    receipts rank generation events =
      if cluster.waitsFor rank = some generation then []
      else [verdict (operands generation events)]
  /-- From a round that was not completed, ranks bring back nothing but its abandonment. -/
  abandoned : ∀ generation ≥ cluster.round.generation, ∀ rank,
    ∀ outcome ∈ receipts rank generation events,
      cluster.round.poisoned = true ∧
        ∃ error : CollectiveError, outcome = .error error ∧ error.IsAbandonment

/-- Distinct ranks of a cluster, as many as there are, are all of them. -/
theorem perm_range_of_nodup {size : Nat} {ranks : List Nat} (distinct : ranks.Nodup)
    (bounded : ∀ rank ∈ ranks, rank < size) (full : ranks.length = size) :
    ranks.Perm (List.range size) := by
  have inside : ranks.Subperm (List.range size) :=
    distinct.subperm fun rank member => List.mem_range.mpr (bounded rank member)
  exact inside.perm_of_length_le (by simp [full])

theorem coherent_start (size : Nat) (task : Seat → Task α β) :
    Coherent size [] (start size task) := by
  have working : ∀ rank, (start size task).waitsFor rank = none := by
    intro rank
    by_cases inside : rank < size <;>
      simp [waitsFor, start, inside, Participant.waitsFor]
  exact {
    length_eq := by simp [start]
    holds := Round.holds_nil rfl
    incomplete := fun positive => positive
    distinct := List.nodup_nil
    bounded := by simp [operands]
    everyone := by simp [start, Round.initial]
    unborn := fun _ _ => rfl
    present := by simp [operands]
    joined := by
      intro rank n generation tag values next found
      have waits := waitsFor_eq_of_getElem? found
      rw [working] at waits
      simp [Participant.waitsFor] at waits
    kept := by simp [working]
    settled := by simp [start, Round.initial]
    abandoned := by simp [receipts] }

namespace Coherent

variable {size : Nat} {events : List (CollectiveEvent α)} {cluster : Cluster α β}

/-- A rank that waits for another round than the current one finds the verdict on it. -/
theorem outcome_eq (coherent : Coherent size events cluster) {rank generation : Nat}
    (waits : cluster.waitsFor rank = some generation)
    (past : cluster.round.generation ≠ generation) :
    cluster.round.outcome generation = verdict (operands generation events) := by
  rcases coherent.kept rank generation waits (Ne.symm past) with ⟨-, kept⟩
  simp [Round.outcome, kept]

/-- The ranks that wait after a rank has stopped waiting waited before. -/
theorem joined_set (coherent : Coherent size events cluster) {rank : Nat} {round : Round α}
    {after : Participant α β} (still : after.waitsFor = none) (new : List (CollectiveEvent α)) :
    ∀ other n generation tag (values : Vector α n) next,
      (Cluster.mk round (cluster.ranks.set rank after)).ranks[other]? =
          some (.waiting generation tag values next) →
        ⟨other, tag, values.toArray⟩ ∈ operands generation (events ++ new) := by
  intro other n generation tag values next found
  rw [List.getElem?_set] at found
  by_cases same : rank = other
  · by_cases inside : rank < cluster.ranks.length
    · simp only [same, if_true] at found
      rw [if_pos (same ▸ inside), Option.some.injEq] at found
      rw [found] at still
      simp [Participant.waitsFor] at still
    · simp only [same, if_true] at found
      rw [if_neg (same ▸ inside)] at found
      cases found
  · rw [if_neg same] at found
    rw [operands_append]
    exact List.mem_append_left _ (coherent.joined other n generation tag values next found)

/--
A step by which no operand is contributed and after which the rank does not
wait.  A rank that waited for a completed round brings back the verdict on it,
and from the current round nothing is brought back but its abandonment.
-/
theorem withoutOperand (coherent : Coherent size events cluster) {rank : Nat}
    (inside : rank < cluster.ranks.length) {after : Participant α β}
    (still : after.waitsFor = none) {departed : Nat} {poisoned : Bool}
    (worse : cluster.round.poisoned = true → poisoned = true)
    (apart : poisoned = false → cluster.waitsFor rank ≠ some cluster.round.generation)
    {new : List (CollectiveEvent α)} (noOperands : ∀ generation, operands generation new = [])
    (collected : ∀ generation < cluster.round.generation, ∀ other,
      receipts other generation new =
        if other = rank ∧ cluster.waitsFor rank = some generation
          then [verdict (operands generation events)] else [])
    (failed : ∀ generation ≥ cluster.round.generation, ∀ other,
      ∀ outcome ∈ receipts other generation new,
        poisoned = true ∧ ∃ error : CollectiveError, outcome = .error error ∧ error.IsAbandonment) :
    Coherent size (events ++ new)
      ⟨{ cluster.round with departed, poisoned }, cluster.ranks.set rank after⟩ := by
  have moved : ∀ other,
      waitsFor ⟨{ cluster.round with departed, poisoned }, cluster.ranks.set rank after⟩ other =
        if other = rank then none else cluster.waitsFor other := by
    intro other
    rw [waitsFor_set inside, still]
  have sameOperands : ∀ generation,
      operands generation (events ++ new) = operands generation events := by
    simp [noOperands]
  have healthy_of : poisoned = false → cluster.round.poisoned = false := by
    intro healthy
    cases broken : cluster.round.poisoned with
    | false =>
        rfl
    | true =>
        rw [worse broken] at healthy
        cases healthy
  exact {
    length_eq := by simp [coherent.length_eq]
    holds := by
      rw [sameOperands]
      exact ⟨coherent.holds.arrived_eq, coherent.holds.first, coherent.holds.total_eq⟩
    incomplete := coherent.incomplete
    distinct := by
      rw [sameOperands]
      exact coherent.distinct
    bounded := by
      rw [sameOperands]
      exact coherent.bounded
    everyone := by
      intro generation below
      rw [sameOperands]
      exact coherent.everyone generation below
    unborn := by
      intro generation above
      rw [sameOperands]
      exact coherent.unborn generation above
    present := by
      intro healthy operand member
      rw [sameOperands] at member
      have here := coherent.present (healthy_of healthy) operand member
      have different : operand.rank ≠ rank := by
        intro same
        rw [same] at here
        exact apart healthy here
      rw [moved, if_neg different]
      exact here
    joined := coherent.joined_set still new
    kept := by
      intro other generation waits past
      rw [moved] at waits
      rw [sameOperands]
      by_cases same : other = rank
      · rw [if_pos same] at waits
        cases waits
      · rw [if_neg same] at waits
        exact coherent.kept other generation waits past
    settled := by
      intro generation below other member
      rw [sameOperands, moved, receipts_append, coherent.settled generation below other member,
        collected generation below other]
      by_cases same : other = rank
      · subst other
        by_cases waits : cluster.waitsFor rank = some generation <;> simp [waits]
      · simp [same]
    abandoned := by
      intro generation above other outcome member
      rw [receipts_append] at member
      rcases List.mem_append.mp member with before | now
      · rcases coherent.abandoned generation above other outcome before with ⟨broken, failure⟩
        exact ⟨worse broken, failure⟩
      · exact failed generation above other outcome now }

/-! ## The steps of a rank -/

/-- A rank that waits for nothing may depart, be refused, or go on with its work. -/
theorem quiet (coherent : Coherent size events cluster) {rank : Nat}
    (inside : rank < cluster.ranks.length) (idle : cluster.waitsFor rank = none)
    {after : Participant α β} (still : after.waitsFor = none) {departed : Nat} {poisoned : Bool}
    (worse : cluster.round.poisoned = true → poisoned = true) {new : List (CollectiveEvent α)}
    (noOperands : ∀ generation, operands generation new = [])
    (noReceipts : ∀ other generation, receipts other generation new = []) :
    Coherent size (events ++ new)
      ⟨{ cluster.round with departed, poisoned }, cluster.ranks.set rank after⟩ := by
  apply coherent.withoutOperand inside still worse
  · simp [idle]
  · exact noOperands
  · simp [noReceipts, idle]
  · simp [noReceipts]

/-- A rank may collect the outcome of a completed round, and then it gets the verdict. -/
theorem collect (coherent : Coherent size events cluster) {rank generation : Nat}
    (inside : rank < cluster.ranks.length) (waits : cluster.waitsFor rank = some generation)
    (past : cluster.round.generation ≠ generation) {after : Participant α β}
    (still : after.waitsFor = none) :
    Coherent size (events ++ [received rank generation (verdict (operands generation events))])
      ⟨cluster.round, cluster.ranks.set rank after⟩ := by
  rcases coherent.kept rank generation waits (Ne.symm past) with ⟨previous, -⟩
  apply coherent.withoutOperand inside still
  · exact id
  · simp [waits, Ne.symm past]
  · exact fun _ => rfl
  · intro current below other
    rw [receipts_singleton, waits]
    by_cases this : generation = current
    · subst current
      simp [eq_comm]
    · simp [this]
  · intro current above other outcome member
    have earlier : ¬ (rank = other ∧ generation = current) := by
      omega
    rw [receipts_singleton, if_neg earlier] at member
    cases member

/-- A rank may leave a round that cannot be completed any more. -/
theorem abandon (coherent : Coherent size events cluster) {rank : Nat}
    (inside : rank < cluster.ranks.length)
    (waits : cluster.waitsFor rank = some cluster.round.generation)
    {after : Participant α β} (still : after.waitsFor = none) {error : CollectiveError}
    (failure : error.IsAbandonment) :
    Coherent size (events ++ [received rank cluster.round.generation (.error error)])
      ⟨{ cluster.round with poisoned := true }, cluster.ranks.set rank after⟩ := by
  apply coherent.withoutOperand inside still
  · exact fun _ => rfl
  · simp
  · exact fun _ => rfl
  · intro current below other
    have different : cluster.round.generation ≠ current := Nat.ne_of_gt below
    rw [receipts_singleton, waits]
    simp [different]
  · intro current above other outcome member
    rw [receipts_singleton] at member
    by_cases this : rank = other ∧ cluster.round.generation = current
    · rw [if_pos this, List.mem_singleton] at member
      exact ⟨rfl, error, member, failure⟩
    · rw [if_neg this] at member
      cases member

/-- A rank that enters the current round has not entered it before. -/
theorem fresh (coherent : Coherent size events cluster) (healthy : cluster.round.poisoned = false)
    {rank : Nat} (idle : cluster.waitsFor rank = none) :
    ∀ operand ∈ operands cluster.round.generation events, operand.rank ≠ rank := by
  intro operand member same
  have here := coherent.present healthy operand member
  rw [same, idle] at here
  cases here

/-- The operands of the current round with one more belong to distinct ranks. -/
theorem distinct_append (coherent : Coherent size events cluster)
    (healthy : cluster.round.poisoned = false) {operand : Contribution α}
    (idle : cluster.waitsFor operand.rank = none) :
    ((operands cluster.round.generation events ++ [operand]).map Contribution.rank).Nodup := by
  rw [List.map_append, List.nodup_append]
  refine ⟨coherent.distinct, by simp, ?_⟩
  intro left leftMember right rightMember same
  rcases List.mem_map.mp leftMember with ⟨earlier, member, rfl⟩
  simp only [List.map_cons, List.map_nil, List.mem_singleton] at rightMember
  rw [rightMember] at same
  exact coherent.fresh healthy idle earlier member same

theorem bounded_append (coherent : Coherent size events cluster) {operand : Contribution α}
    (inside : operand.rank < size) :
    ∀ member ∈ operands cluster.round.generation events ++ [operand], member.rank < size := by
  intro member found
  rcases List.mem_append.mp found with before | now
  · exact coherent.bounded member before
  · rw [List.mem_singleton.mp now]
    exact inside

/-- When the last rank enters a round, all ranks have entered it. -/
theorem all_entered (coherent : Coherent size events cluster) (operand : Contribution α)
    (inside : operand.rank < size) (idle : cluster.waitsFor operand.rank = none)
    (healthy : cluster.round.poisoned = false) (last : cluster.round.arrived + 1 = size) :
    ((operands cluster.round.generation events ++ [operand]).map Contribution.rank).Perm
      (List.range size) := by
  apply perm_range_of_nodup (coherent.distinct_append healthy idle)
  · intro other member
    rcases List.mem_map.mp member with ⟨entry, found, rfl⟩
    exact coherent.bounded_append inside entry found
  · have counted := (coherent.holds.withOperand operand).arrived_eq
    rw [Round.arrived_withOperand, last] at counted
    rw [List.length_map, ← counted]

/-- When the last rank enters a round, all the others wait for it. -/
theorem others_wait (coherent : Coherent size events cluster) {rank : Nat}
    (inside : rank < cluster.ranks.length) (idle : cluster.waitsFor rank = none)
    (healthy : cluster.round.poisoned = false) (last : cluster.round.arrived + 1 = size) :
    ∀ other < size, other ≠ rank →
      cluster.waitsFor other = some cluster.round.generation := by
  intro other below different
  have allEntered := coherent.all_entered ⟨rank, "", #[]⟩ (coherent.length_eq ▸ inside) idle
    healthy last
  have member := allEntered.mem_iff.mpr (List.mem_range.mpr below)
  rcases List.mem_map.mp member with ⟨operand, found, rfl⟩
  rcases List.mem_append.mp found with before | now
  · exact coherent.present healthy operand before
  · rw [List.mem_singleton.mp now] at different
    exact absurd rfl different

/-- As long as no rank has failed, nobody has left a round that is not completed. -/
theorem none_received (coherent : Coherent size events cluster)
    (healthy : cluster.round.poisoned = false) :
    ∀ other generation, generation ≥ cluster.round.generation →
      receipts other generation events = [] := by
  intro other generation above
  apply List.eq_nil_iff_forall_not_mem.mpr
  intro early member
  rcases coherent.abandoned generation above other early member with ⟨broken, -⟩
  rw [healthy] at broken
  cases broken

/-- A rank that is not the last one enters the current round and waits. -/
theorem wait (coherent : Coherent size events cluster) {rank n : Nat} {tag : String}
    {values : Vector α n} {next : Except CollectiveError (Vector α n) → Task α β}
    (inside : rank < cluster.ranks.length) (idle : cluster.waitsFor rank = none)
    (healthy : cluster.round.poisoned = false) (more : cluster.round.arrived + 1 ≠ size) :
    Coherent size
      (events ++ [entered cluster.round.generation ⟨rank, tag, values.toArray⟩])
      ⟨cluster.round.withOperand ⟨rank, tag, values.toArray⟩,
        cluster.ranks.set rank (.waiting cluster.round.generation tag values next)⟩ := by
  have moved : ∀ other, waitsFor ⟨cluster.round.withOperand ⟨rank, tag, values.toArray⟩,
      cluster.ranks.set rank (.waiting cluster.round.generation tag values next)⟩ other =
        if other = rank then some cluster.round.generation else cluster.waitsFor other := by
    intro other
    rw [waitsFor_set inside]
    rfl
  have currentOperands : operands cluster.round.generation
      (events ++ [entered cluster.round.generation ⟨rank, tag, values.toArray⟩]) =
        operands cluster.round.generation events ++ [⟨rank, tag, values.toArray⟩] := by
    rw [operands_append, operands_singleton, if_pos rfl]
  have otherOperands : ∀ generation ≠ cluster.round.generation, operands generation
      (events ++ [entered cluster.round.generation ⟨rank, tag, values.toArray⟩]) =
        operands generation events := by
    intro generation different
    rw [operands_append, operands_singleton, if_neg (Ne.symm different), List.append_nil]
  have sameReceipts : ∀ other generation, receipts other generation
      (events ++ [entered cluster.round.generation ⟨rank, tag, values.toArray⟩]) =
        receipts other generation events := by
    intro other generation
    rw [receipts_append]
    exact List.append_nil _
  have member_size : rank < size := coherent.length_eq ▸ inside
  exact {
    length_eq := by simp [coherent.length_eq]
    holds := by
      rw [Round.generation_withOperand, currentOperands]
      exact coherent.holds.withOperand _
    incomplete := by
      intro positive
      have below := coherent.incomplete positive
      rw [Round.arrived_withOperand]
      omega
    distinct := by
      rw [Round.generation_withOperand, currentOperands]
      exact coherent.distinct_append healthy idle
    bounded := by
      rw [Round.generation_withOperand, currentOperands]
      exact coherent.bounded_append member_size
    everyone := by
      intro generation below
      rw [Round.generation_withOperand] at below
      rw [otherOperands generation (Nat.ne_of_lt below)]
      exact coherent.everyone generation below
    unborn := by
      intro generation above
      rw [Round.generation_withOperand] at above
      rw [otherOperands generation (Nat.ne_of_gt above)]
      exact coherent.unborn generation above
    present := by
      intro _ operand member
      rw [Round.generation_withOperand, currentOperands] at member
      rw [Round.generation_withOperand, moved]
      rcases List.mem_append.mp member with before | now
      · rw [if_neg (coherent.fresh healthy idle operand before)]
        exact coherent.present healthy operand before
      · rw [List.mem_singleton.mp now, if_pos rfl]
    joined := by
      intro other length generation otherTag otherValues otherNext found
      simp only at found
      rw [List.getElem?_set] at found
      rw [operands_append]
      by_cases same : rank = other
      · subst other
        rw [if_pos rfl, if_pos inside, Option.some.injEq, Participant.waiting.injEq] at found
        rcases found with ⟨rfl, rfl, rfl, equal, -⟩
        rw [operands_singleton, if_pos rfl, eq_of_heq equal]
        exact List.mem_append_right _ (List.mem_singleton_self _)
      · rw [if_neg same] at found
        exact List.mem_append_left _
          (coherent.joined other length generation otherTag otherValues otherNext found)
    kept := by
      intro other generation waits past
      rw [Round.generation_withOperand] at past
      rw [moved] at waits
      by_cases same : other = rank
      · rw [if_pos same, Option.some.injEq] at waits
        exact absurd waits.symm past
      · rw [if_neg same] at waits
        rw [Round.generation_withOperand, Round.completed_withOperand,
          otherOperands generation past]
        exact coherent.kept other generation waits past
    settled := by
      intro generation below other member
      rw [Round.generation_withOperand] at below
      rw [sameReceipts, otherOperands generation (Nat.ne_of_lt below), moved,
        coherent.settled generation below other member]
      by_cases same : other = rank
      · subst other
        have different : ¬ cluster.round.generation = generation := Nat.ne_of_gt below
        simp [idle, different]
      · rw [if_neg same]
    abandoned := by
      intro generation above other outcome member
      rw [Round.generation_withOperand] at above
      rw [sameReceipts] at member
      rw [Round.poisoned_withOperand]
      exact coherent.abandoned generation above other outcome member }

/-- The outcome of the current round, if it is completed with one more operand. -/
theorem completed_complete (coherent : Coherent size events cluster) (operand : Contribution α) :
    (cluster.round.withOperand operand).complete.completed =
      some (cluster.round.generation,
        verdict (operands cluster.round.generation events ++ [operand])) := by
  have allHeld := coherent.holds.withOperand operand
  have kept := allHeld.completed_complete (List.append_ne_nil_of_right_ne_nil _ (by simp))
  rw [Round.generation_withOperand] at kept
  exact kept

/-- The rank that completes a round gets the verdict on it. -/
theorem obtained_complete (coherent : Coherent size events cluster) {rank n : Nat} {tag : String}
    {values : Vector α n} {outcome : Except CollectiveError (Array α)}
    (decided : outcome =
      (cluster.round.withOperand ⟨rank, tag, values.toArray⟩).complete.outcome
        cluster.round.generation) :
    Participant.obtained n outcome =
      verdict (operands cluster.round.generation events ++ [⟨rank, tag, values.toArray⟩]) := by
  have own : (⟨rank, tag, values.toArray⟩ : Contribution α) ∈
      operands cluster.round.generation events ++ [⟨rank, tag, values.toArray⟩] := by
    simp
  have seen := Participant.obtained_verdict own
  simp only [Vector.size_toArray] at seen
  rw [decided, Round.outcome, coherent.completed_complete]
  simpa using seen

/-- A rank that is late for a completed round gets the verdict on it. -/
theorem obtained_over (coherent : Coherent size events cluster) {rank n generation : Nat}
    {tag : String} {values : Vector α n}
    {next : Except CollectiveError (Vector α n) → Task α β}
    (found : cluster.ranks[rank]? = some (.waiting generation tag values next))
    (past : cluster.round.generation ≠ generation) :
    Participant.obtained n (cluster.round.outcome generation) =
      verdict (operands generation events) := by
  have seen :=
    Participant.obtained_verdict (coherent.joined rank n generation tag values next found)
  simp only [Vector.size_toArray] at seen
  rw [coherent.outcome_eq (waitsFor_eq_of_getElem? found) past]
  exact seen

/-- The rank that enters last completes the round and leaves it with the verdict. -/
theorem complete (coherent : Coherent size events cluster) {rank n : Nat} {tag : String}
    {values : Vector α n} {after : Participant α β}
    {outcome : Except CollectiveError (Array α)} (inside : rank < cluster.ranks.length)
    (idle : cluster.waitsFor rank = none) (healthy : cluster.round.poisoned = false)
    (last : cluster.round.arrived + 1 = size)
    (decided : outcome =
      (cluster.round.withOperand ⟨rank, tag, values.toArray⟩).complete.outcome
        cluster.round.generation)
    (still : after.waitsFor = none) :
    Coherent size
      (events ++ [entered cluster.round.generation ⟨rank, tag, values.toArray⟩,
        received rank cluster.round.generation (Participant.obtained n outcome)])
      ⟨(cluster.round.withOperand ⟨rank, tag, values.toArray⟩).complete,
        cluster.ranks.set rank after⟩ := by
  have moved : ∀ other,
      waitsFor ⟨(cluster.round.withOperand ⟨rank, tag, values.toArray⟩).complete,
        cluster.ranks.set rank after⟩ other =
          if other = rank then none else cluster.waitsFor other := by
    intro other
    rw [waitsFor_set inside, still]
  have member_size : rank < size := coherent.length_eq ▸ inside
  have newGeneration :
      (cluster.round.withOperand ⟨rank, tag, values.toArray⟩).complete.generation =
        cluster.round.generation + 1 := by
    rw [Round.complete, Round.generation_withOperand]
  have allEntered := coherent.all_entered ⟨rank, tag, values.toArray⟩ member_size idle healthy last
  have othersWait := coherent.others_wait inside idle healthy last
  have noneReceived := coherent.none_received healthy
  have kept := coherent.completed_complete ⟨rank, tag, values.toArray⟩
  rw [coherent.obtained_complete decided]
  have currentOperands : ∀ outcome, operands cluster.round.generation
      (events ++ [entered cluster.round.generation ⟨rank, tag, values.toArray⟩,
        received rank cluster.round.generation outcome]) =
        operands cluster.round.generation events ++ [⟨rank, tag, values.toArray⟩] := by
    intro outcome
    rw [operands_append]
    simp [operands]
  have otherOperands : ∀ outcome, ∀ generation ≠ cluster.round.generation, operands generation
      (events ++ [entered cluster.round.generation ⟨rank, tag, values.toArray⟩,
        received rank cluster.round.generation outcome]) =
        operands generation events := by
    intro outcome generation different
    rw [operands_append]
    simp [operands, Ne.symm different]
  have newReceipts : ∀ outcome other generation, receipts other generation
      (events ++ [entered cluster.round.generation ⟨rank, tag, values.toArray⟩,
        received rank cluster.round.generation outcome]) =
        receipts other generation events ++
          if rank = other ∧ cluster.round.generation = generation then [outcome] else [] := by
    intro outcome other generation
    rw [receipts_append, ← receipts_singleton]
    rfl
  exact {
    length_eq := by simp [coherent.length_eq]
    holds := by
      rw [newGeneration, otherOperands _ _ (Nat.ne_of_gt (Nat.lt_succ_self _)),
        coherent.unborn _ (Nat.lt_succ_self _)]
      exact Round.holds_nil rfl
    incomplete := fun positive => positive
    distinct := by
      rw [newGeneration, otherOperands _ _ (Nat.ne_of_gt (Nat.lt_succ_self _)),
        coherent.unborn _ (Nat.lt_succ_self _)]
      exact List.nodup_nil
    bounded := by
      rw [newGeneration, otherOperands _ _ (Nat.ne_of_gt (Nat.lt_succ_self _)),
        coherent.unborn _ (Nat.lt_succ_self _)]
      simp
    everyone := by
      intro generation below
      rw [newGeneration] at below
      rcases Nat.lt_succ_iff_lt_or_eq.mp below with earlier | same
      · rw [otherOperands _ _ (Nat.ne_of_lt earlier)]
        exact coherent.everyone generation earlier
      · rw [same, currentOperands]
        exact allEntered
    unborn := by
      intro generation above
      rw [newGeneration] at above
      have later : cluster.round.generation < generation := Nat.lt_of_succ_lt above
      rw [otherOperands _ _ (Nat.ne_of_gt later)]
      exact coherent.unborn generation later
    present := by
      intro _ operand member
      rw [newGeneration, otherOperands _ _ (Nat.ne_of_gt (Nat.lt_succ_self _)),
        coherent.unborn _ (Nat.lt_succ_self _)] at member
      cases member
    joined := coherent.joined_set still _
    kept := by
      intro other generation waits _
      rw [moved] at waits
      by_cases same : other = rank
      · rw [if_pos same] at waits
        cases waits
      · rw [if_neg same] at waits
        have below : other < size := by
          by_contra outside
          rw [← coherent.length_eq] at outside
          rw [waitsFor, List.getElem?_eq_none (Nat.le_of_not_lt outside)] at waits
          cases waits
        rw [othersWait other below same, Option.some.injEq] at waits
        rw [← waits, newGeneration, currentOperands]
        exact ⟨rfl, kept⟩
    settled := by
      intro generation below other member
      rw [newGeneration] at below
      rw [moved, newReceipts]
      rcases Nat.lt_succ_iff_lt_or_eq.mp below with earlier | same
      · rw [otherOperands _ _ (Nat.ne_of_lt earlier),
          coherent.settled generation earlier other member]
        have different : ¬ cluster.round.generation = generation := Nat.ne_of_gt earlier
        by_cases own : other = rank
        · subst other
          simp [idle, different]
        · simp [own, different]
      · rw [same, currentOperands, noneReceived other _ (Nat.le_refl _)]
        by_cases own : other = rank
        · simp [own]
        · simp [own, Ne.symm own, othersWait other member own]
    abandoned := by
      intro generation above other outcome member
      rw [newGeneration] at above
      have later : cluster.round.generation < generation := above
      have different : ¬ (rank = other ∧ cluster.round.generation = generation) := by
        omega
      rw [newReceipts, if_neg different, List.append_nil,
        noneReceived other generation (Nat.le_of_lt later)] at member
      cases member }

/-- Every step of every rank preserves coherence. -/
theorem move (coherent : Coherent size events cluster) {fails : β → Bool} {rank : Nat}
    {new : List (CollectiveEvent α)} {after : Cluster α β}
    (moved : cluster.move fails rank = some (new, after)) :
    Coherent size (events ++ new) after := by
  rcases moves_of_move moved with ⟨before, round, participant, found, moves, rfl⟩
  have inside : rank < cluster.ranks.length := (List.getElem?_eq_some_iff.mp found).1
  have position := waitsFor_eq_of_getElem? found
  cases moves with
  | depart result =>
      apply coherent.quiet inside position rfl
      · intro broken
        simp [broken]
      · exact fun _ => rfl
      · exact fun _ _ => rfl
  | tell notice next =>
      apply coherent.quiet inside position rfl
      · exact id
      · exact fun _ => rfl
      · exact fun _ _ => rfl
  | refuse tag values next error closed abandoned =>
      apply coherent.quiet inside position rfl
      · exact fun _ => rfl
      · exact fun _ => rfl
      · exact fun _ _ => rfl
  | wait tag values next healthy present incomplete =>
      rw [coherent.length_eq] at incomplete
      exact coherent.wait inside position healthy incomplete
  | complete tag values next outcome healthy present last decided =>
      rw [coherent.length_eq] at last
      exact coherent.complete inside position healthy last decided rfl
  | @collect n generation tag values next past =>
      rw [coherent.obtained_over found past]
      exact coherent.collect inside position past rfl
  | abandon tag values next error hopeless abandoned =>
      exact coherent.abandon inside position rfl abandoned

end Coherent

/-- After every schedule the cluster is coherent with its history. -/
theorem coherent_history (fails : β → Bool) (size : Nat) (task : Seat → Task α β)
    (schedule : List Nat) :
    Coherent size (history fails size task schedule).1 (history fails size task schedule).2 := by
  apply history_induction (coherent_start size task)
  intro events cluster rank new after coherent moved
  exact coherent.move moved

/-- An invariant may use coherence when it is shown to be preserved. -/
theorem coherent_history_induction {fails : β → Bool} {size : Nat} {task : Seat → Task α β}
    {property : List (CollectiveEvent α) → Cluster α β → Prop}
    (initial : property [] (start size task))
    (preserved : ∀ events cluster rank new after, Coherent size events cluster →
      property events cluster → cluster.move fails rank = some (new, after) →
        property (events ++ new) after)
    (schedule : List Nat) :
    property (history fails size task schedule).1 (history fails size task schedule).2 := by
  let strengthened (events : List (CollectiveEvent α)) (cluster : Cluster α β) : Prop :=
    Coherent size events cluster ∧ property events cluster
  have both : strengthened (history fails size task schedule).1
      (history fails size task schedule).2 := by
    apply history_induction
    · exact ⟨coherent_start size task, initial⟩
    · rintro events cluster rank new after ⟨coherent, holds⟩ moved
      exact ⟨coherent.move moved,
        preserved events cluster rank new after coherent holds moved⟩
  exact both.2

end ImmersedBody.Cluster
