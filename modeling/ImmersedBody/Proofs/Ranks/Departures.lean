import ImmersedBody.Proofs.Histories
import ImmersedBody.Proofs.Ranks.Coherence

/-!
# Departures of ranks

Rounds can be abandoned once a rank has departed.  This file accounts for the
departures of a cluster: the shared state counts them, and every abandonment is
preceded by one.  Together with coherence this excludes deadlock: as long as
some rank waits, some rank can move.
-/

namespace ImmersedBody

namespace CollectiveEvent

variable {α : Type}

/-- The error that a rank gets to see. -/
def failure? : CollectiveEvent α → Option CollectiveError
  | received _ _ (.error error) => some error
  | refused _ error => some error
  | _ => none

theorem failure?_received {rank generation : Nat} {outcome : Except CollectiveError (Array α)}
    {error : CollectiveError} :
    (received rank generation outcome).failure? = some error ↔ outcome = .error error := by
  cases outcome <;> simp [failure?]

/-- The ranks that departed. -/
def departures (events : List (CollectiveEvent α)) : List Nat :=
  events.filterMap fun
    | departed rank _ => some rank
    | _ => none

/-- Every abandonment has a departure before it. -/
def Blamed (events : List (CollectiveEvent α)) : Prop :=
  ∀ before event after error, events = before ++ event :: after →
    event.failure? = some error → error.IsAbandonment → departures before ≠ []

@[simp]
theorem departures_append (events new : List (CollectiveEvent α)) :
    departures (events ++ new) = departures events ++ departures new :=
  List.filterMap_append

theorem exists_departed_of_departures {events : List (CollectiveEvent α)}
    (some_left : departures events ≠ []) :
    ∃ rank failed, departed rank failed ∈ events := by
  rcases List.exists_mem_of_ne_nil _ some_left with ⟨rank, member⟩
  rcases List.mem_filterMap.mp member with ⟨event, found, kind⟩
  cases event with
  | departed leaver failed =>
      exact ⟨leaver, failed, found⟩
  | entered | received | refused =>
      cases kind

theorem Blamed.append {events new : List (CollectiveEvent α)} (blamed : Blamed events)
    (caused : ∀ event ∈ new, ∀ error, event.failure? = some error → error.IsAbandonment →
      departures events ≠ []) :
    Blamed (events ++ new) := by
  intro before event after error split failed abandoned
  rcases split_of_append split with ⟨between, -, earlier⟩ | ⟨between, rfl, later⟩
  · exact blamed before event between error earlier failed abandoned
  · have member : event ∈ new := by
      rw [later]
      exact List.mem_append_right _ List.mem_cons_self
    rw [departures_append]
    exact List.append_ne_nil_of_left_ne_nil (caused event member error failed abandoned) _

end CollectiveEvent

namespace Cluster

open CollectiveEvent Contribution

variable {α β : Type}

/-- A verdict is not an abandonment. -/
theorem not_isAbandonment_of_verdict [Zero α] [Add α] {operands : List (Contribution α)}
    {error : CollectiveError} (failed : verdict operands = .error error) : ¬ error.IsAbandonment := by
  rcases verdict_cases operands with ⟨length, summed, -⟩ | ⟨first, -, other, -, -, mismatched⟩
  · rw [summed] at failed
    cases failed
  · rw [mismatched, Except.error.injEq] at failed
    rw [← failed]
    exact id

/-- The shared state and the events account for the ranks that have departed. -/
structure Accounted (events : List (CollectiveEvent α)) (cluster : Cluster α β) : Prop where
  counted : cluster.round.departed = (departures events).length
  gone : ∀ rank result, cluster.ranks[rank]? = some (.departed result) →
    rank ∈ departures events
  caused : cluster.round.poisoned = true → 0 < cluster.round.departed
  blamed : Blamed events

theorem accounted_start (size : Nat) (task : Seat → Task α β) :
    Accounted [] (start size task) where
  counted := rfl
  gone := by
    intro rank result found
    simp [start] at found
  caused := by
    intro broken
    cases broken
  blamed := by
    intro before event after error split
    simp at split

namespace Accounted

variable {size : Nat} {events : List (CollectiveEvent α)} {cluster : Cluster α β}

theorem departures_ne_nil (accounted : Accounted events cluster)
    (missing : 0 < cluster.round.departed) : departures events ≠ [] := by
  apply List.ne_nil_of_length_pos
  rw [← accounted.counted]
  exact missing

/-- The ranks that have departed after a step of a rank that has not. -/
theorem gone_set (accounted : Accounted events cluster) {rank : Nat} {round : Round α}
    {after : Participant α β} (present : ∀ result, after ≠ .departed result)
    (new : List (CollectiveEvent α)) :
    ∀ other result,
      (Cluster.mk round (cluster.ranks.set rank after)).ranks[other]? = some (.departed result) →
        other ∈ departures (events ++ new) := by
  intro other result found
  rw [departures_append]
  apply List.mem_append_left
  by_cases same : rank = other
  · subst other
    simp only at found
    by_cases inside : rank < cluster.ranks.length
    · rw [List.getElem?_set_self inside, Option.some.injEq] at found
      exact absurd found (present result)
    · rw [List.getElem?_eq_none (by simpa using inside)] at found
      cases found
  · simp only at found
    rw [List.getElem?_set_ne same] at found
    exact accounted.gone other result found

/-- A step by which no rank departs. -/
theorem withoutDeparture (accounted : Accounted events cluster) {rank : Nat} {round : Round α}
    {after : Participant α β} (present : ∀ result, after ≠ .departed result)
    {new : List (CollectiveEvent α)} (sameCount : round.departed = cluster.round.departed)
    (caused : round.poisoned = true → 0 < cluster.round.departed)
    (nobody : departures new = [])
    (blamed : ∀ event ∈ new, ∀ error, event.failure? = some error → error.IsAbandonment →
      0 < cluster.round.departed) :
    Accounted (events ++ new) ⟨round, cluster.ranks.set rank after⟩ where
  counted := by
    rw [departures_append, nobody, List.append_nil, ← accounted.counted]
    exact sameCount
  gone := accounted.gone_set present new
  caused := by
    intro broken
    rw [sameCount]
    exact caused broken
  blamed := by
    apply accounted.blamed.append
    intro event member error failed abandoned
    exact accounted.departures_ne_nil (blamed event member error failed abandoned)

/-- A step by which a rank departs. -/
theorem departure (accounted : Accounted events cluster) {rank : Nat} {result : β} {failed : Bool} :
    Accounted (events ++ [departed rank failed])
      ⟨cluster.round.depart failed, cluster.ranks.set rank (.departed result)⟩ where
  counted := by
    rw [departures_append, List.length_append, ← accounted.counted]
    rfl
  gone := by
    intro other last left
    rw [departures_append]
    by_cases same : rank = other
    · subst other
      exact List.mem_append_right _ List.mem_cons_self
    · simp only at left
      rw [List.getElem?_set_ne same] at left
      exact List.mem_append_left _ (accounted.gone other last left)
  caused := fun _ => Nat.succ_pos _
  blamed := by
    apply accounted.blamed.append
    intro event member error abandonment
    rw [List.mem_singleton.mp member] at abandonment
    cases abandonment

/-- Whoever is turned away or gives up a round finds that a rank has departed. -/
theorem missing_of_closed (accounted : Accounted events cluster)
    (closed : cluster.round.poisoned = true ∨ 0 < cluster.round.departed) :
    0 < cluster.round.departed :=
  closed.elim accounted.caused id

variable [Zero α] [Add α]

/-- Every step of every rank is accounted for. -/
theorem move (accounted : Accounted events cluster) (coherent : Coherent size events cluster)
    {fails : β → Bool} {rank : Nat} {new : List (CollectiveEvent α)} {next : Cluster α β}
    (moved : cluster.move fails rank = some (new, next)) :
    Accounted (events ++ new) next := by
  rcases moves_of_move moved with ⟨before, round, participant, found, moves, rfl⟩
  have position := waitsFor_eq_of_getElem? found
  cases moves with
  | depart result =>
      exact accounted.departure
  | tell notice next =>
      apply accounted.withoutDeparture
      · rintro result ⟨⟩
      · rfl
      · exact accounted.caused
      · rfl
      · rintro event ⟨⟩
  | refuse tag values next error closed abandoned =>
      have missing := accounted.missing_of_closed closed
      apply accounted.withoutDeparture
      · rintro result ⟨⟩
      · rfl
      · exact fun _ => missing
      · rfl
      · exact fun _ _ _ _ _ => missing
  | wait tag values next healthy present incomplete =>
      apply accounted.withoutDeparture
      · rintro result ⟨⟩
      · exact Round.departed_withOperand _ _
      · rw [Round.poisoned_withOperand]
        exact accounted.caused
      · rfl
      · intro event member error failed
        rw [List.mem_singleton.mp member] at failed
        cases failed
  | complete tag values next outcome healthy present last decided =>
      apply accounted.withoutDeparture
      · rintro result ⟨⟩
      · exact Round.departed_withOperand _ _
      · rw [Round.complete, Round.poisoned_withOperand]
        exact accounted.caused
      · rfl
      · intro event member error failed abandoned
        rw [coherent.obtained_complete decided, List.mem_pair] at member
        rcases member with rfl | rfl
        · cases failed
        · exact absurd abandoned (not_isAbandonment_of_verdict (failure?_received.mp failed))
  | @collect n generation tag values next past =>
      apply accounted.withoutDeparture
      · rintro result ⟨⟩
      · rfl
      · exact accounted.caused
      · rfl
      · intro event member error failed abandoned
        rw [coherent.obtained_over found past, List.mem_singleton] at member
        rw [member] at failed
        exact absurd abandoned (not_isAbandonment_of_verdict (failure?_received.mp failed))
  | abandon tag values next error hopeless abandoned =>
      have missing := accounted.missing_of_closed (hopeless.imp_right And.left)
      apply accounted.withoutDeparture
      · rintro result ⟨⟩
      · rfl
      · exact fun _ => missing
      · rfl
      · exact fun _ _ _ _ _ => missing

end Accounted

section

variable [Zero α] [Add α]

/-- After every schedule the departures of a cluster are accounted for. -/
theorem accounted_history (fails : β → Bool) (size : Nat) (task : Seat → Task α β)
    (schedule : List Nat) :
    Accounted (history fails size task schedule).1 (history fails size task schedule).2 := by
  apply coherent_history_induction (accounted_start size task)
  intro events cluster rank new after coherent accounted moved
  exact accounted.move coherent moved

end

/-! ## Deadlock freedom -/

/-- A rank that works can move, and one that waits can if it finds a reason to leave. -/
def CanMove (cluster : Cluster α β) (rank : Nat) : Prop :=
  (∃ task, cluster.ranks[rank]? = some (.working task)) ∨
    ∃ n generation tag, ∃ (values : Vector α n), ∃ next,
      cluster.ranks[rank]? = some (.waiting generation tag values next) ∧
        (cluster.round.lookAgain cluster.ranks.length tag generation).isSome

theorem move_isSome_of_canMove [Zero α] [Add α] {fails : β → Bool} {cluster : Cluster α β}
    {rank : Nat} (able : cluster.CanMove rank) : (cluster.move fails rank).isSome := by
  rcases able with ⟨task, found⟩ | ⟨n, generation, tag, values, next, found, reason⟩
  · rw [Cluster.move, found]
    cases task with
    | done result =>
        rfl
    | tell notice next =>
        rfl
    | reduce tag values next =>
        rcases entered : cluster.round.enter cluster.ranks.length rank tag values.toArray with
          ⟨round, passage⟩
        cases passage <;> simp [Participant.step, entered]
  · rcases Option.isSome_iff_exists.mp reason with ⟨⟨round, outcome⟩, left⟩
    simp [Cluster.move, found, Participant.step, left]

/-- A rank that cannot move waits for the current round, or it has departed. -/
theorem blocked_cases {cluster : Cluster α β} {rank : Nat}
    (inside : rank < cluster.ranks.length) (unable : ¬ cluster.CanMove rank) :
    (∃ result, cluster.ranks[rank]? = some (.departed result)) ∨
      ∃ n tag, ∃ (values : Vector α n), ∃ next,
        cluster.ranks[rank]? =
            some (.waiting cluster.round.generation tag values next) ∧
          cluster.round.poisoned = false ∧
          ¬ (0 < cluster.round.departed ∧
            cluster.ranks.length ≤ cluster.round.arrived + cluster.round.departed) := by
  rcases found : cluster.ranks[rank]? with _ | participant
  · rw [List.getElem?_eq_none_iff] at found
    omega
  · cases participant with
    | working task =>
        exact absurd (Or.inl ⟨task, found⟩) unable
    | departed result =>
        exact Or.inl ⟨result, rfl⟩
    | @waiting n generation tag values next =>
        right
        have stays : ¬ (cluster.round.lookAgain cluster.ranks.length tag generation).isSome :=
          fun leaves => unable (Or.inr ⟨n, generation, tag, values, next, found, leaves⟩)
        rw [Round.lookAgain] at stays
        split_ifs at stays with same broken hopeless
        · exact absurd rfl stays
        · exact absurd rfl stays
        · subst same
          exact ⟨n, tag, values, next, rfl, by simpa using broken, hopeless⟩
        · exact absurd rfl stays

variable [Zero α] [Add α]

/--
As long as some rank waits, some rank can move: otherwise every rank either has
contributed to the current round or has departed, and then those that wait find
the round hopeless, or the round is complete.
-/
theorem exists_canMove_of_waits {size : Nat} {events : List (CollectiveEvent α)}
    {cluster : Cluster α β} (coherent : Coherent size events cluster)
    (accounted : Accounted events cluster) {rank generation : Nat}
    (waits : cluster.waitsFor rank = some generation) : ∃ other, cluster.CanMove other := by
  by_contra none_able
  have unable : ∀ other, ¬ cluster.CanMove other := not_exists.mp none_able
  have everywhere : List.range size ⊆
      (operands cluster.round.generation events).map Contribution.rank ++ departures events := by
    intro other member
    have inside : other < cluster.ranks.length := by
      rw [coherent.length_eq]
      exact List.mem_range.mp member
    rcases blocked_cases inside (unable other) with
      ⟨result, left⟩ | ⟨n, tag, values, next, found, -⟩
    · exact List.mem_append_right _ (accounted.gone other result left)
    · have joined := coherent.joined other n _ tag values next found
      exact List.mem_append_left _ (List.mem_map_of_mem joined)
  have enough : size ≤ cluster.round.arrived + cluster.round.departed := by
    have shorter := (List.nodup_range.subperm everywhere).length_le
    rw [List.length_range, List.length_append, List.length_map, ← accounted.counted,
      ← coherent.holds.arrived_eq] at shorter
    exact shorter
  have inside : rank < cluster.ranks.length := by
    by_contra outside
    rw [waitsFor, List.getElem?_eq_none (Nat.le_of_not_lt outside)] at waits
    cases waits
  have incomplete := coherent.incomplete (Nat.zero_lt_of_lt (coherent.length_eq ▸ inside))
  rcases blocked_cases inside (unable rank) with
    ⟨result, left⟩ | ⟨n, tag, values, next, -, -, hopeful⟩
  · rw [waitsFor, left] at waits
    cases waits
  · rw [coherent.length_eq] at hopeful
    omega

/-- When no rank can move any more, all ranks have departed. -/
theorem all_departed_of_stuck {size : Nat} {events : List (CollectiveEvent α)}
    {cluster : Cluster α β} (coherent : Coherent size events cluster)
    (accounted : Accounted events cluster) (stuck : ∀ rank, ¬ cluster.CanMove rank) :
    ∀ rank < size, ∃ result, cluster.ranks[rank]? = some (.departed result) := by
  intro rank below
  rw [← coherent.length_eq] at below
  rcases blocked_cases below (stuck rank) with departed | ⟨n, tag, values, next, found, -⟩
  · exact departed
  · rcases exists_canMove_of_waits coherent accounted (waitsFor_eq_of_getElem? found) with
      ⟨other, able⟩
    exact absurd able (stuck other)

end Cluster

end ImmersedBody
