import ImmersedBody.Proofs.Ranks.Departures
import Mathlib.Data.List.FinRange

/-!
# Ranks in lockstep

The tasks of the ranks are in lockstep if they issue the same collective, go on
in lockstep with every sum that their values can have, and end together.  Which
collective comes next may depend on the sums before.

The main theorem is `inStep_history`: under every schedule of the cluster no
collective of ranks in lockstep fails, all ranks issue the same sequence of
collectives, and the results are those with which they end together.
-/

namespace ImmersedBody

variable {α β : Type} {p : Nat}

namespace Task

/-- The same task without its notices. -/
def quiet : Task α β → Task α β
  | done result => done result
  | tell _ next => next.quiet
  | reduce tag values next => reduce tag values fun outcome => (next outcome).quiet

/-- The task contributes an operand next. -/
def Offers (task : Task α β) (operand : Contribution α) : Prop :=
  ∃ n, ∃ values : Vector α n, ∃ next, task = .reduce operand.tag values next ∧
    operand.values = values.toArray

/-- A collective of a quiet task is that of the task, with what comes after it made quiet. -/
theorem reduce_of_quiet {n m : Nat} {tag tag' : String} {values : Vector α n}
    {values' : Vector α m} {next : Except CollectiveError (Vector α n) → Task α β}
    {next' : Except CollectiveError (Vector α m) → Task α β}
    (same : (reduce tag values next).quiet = reduce tag' values' next') :
    tag = tag' ∧ values.toArray = values'.toArray ∧
      ∀ (total : Array α) (fits : total.size = n) (fits' : total.size = m),
        (next (.ok ⟨total, fits⟩)).quiet = next' (.ok ⟨total, fits'⟩) := by
  rw [quiet] at same
  cases same
  exact ⟨rfl, rfl, fun _ _ _ => rfl⟩

end Task

/-- The place of a rank among all ranks. -/
def Seat.of (rank : Fin p) : Seat :=
  ⟨rank.val, p, rank.isLt⟩

section

variable [Zero α] [Add α]

/-- The sum of the values of all ranks, in some order of their arrival. -/
def Totals {n : Nat} (values : Fin p → Vector α n) (total : Vector α n) : Prop :=
  ∃ order : List (Fin p), order.Perm (List.finRange p) ∧
    ∀ i (_ : i < n), total[i] = order.foldl (fun sum rank => sum + (values rank)[i]) 0

/-- The tasks of all ranks issue the same collectives and end together. -/
inductive Lockstep (post : (Fin p → β) → Prop) : (Fin p → Task α β) → Prop where
  | done {results : Fin p → β} (ended : post results) :
      Lockstep post fun rank => .done (results rank)
  | reduce {n : Nat} {tag : String} {values : Fin p → Vector α n}
      {next : Fin p → Except CollectiveError (Vector α n) → Task α β}
      (goesOn : ∀ total, Totals values total → Lockstep post fun rank => next rank (.ok total)) :
      Lockstep post fun rank => .reduce tag (values rank) (next rank)

namespace Lockstep

variable {post : (Fin p → β) → Prop} {front : Fin p → Task α β} {rank : Fin p}

theorem imp {post' : (Fin p → β) → Prop} (lockstep : Lockstep post front)
    (weaker : ∀ results, post results → post' results) : Lockstep post' front := by
  induction lockstep with
  | done ended =>
      exact .done (weaker _ ended)
  | reduce goesOn ih =>
      exact .reduce ih

theorem bind {γ : Type} {post' : (Fin p → γ) → Prop} {f : Fin p → β → Task α γ}
    (lockstep : Lockstep post front)
    (later : ∀ results, post results → Lockstep post' fun rank => f rank (results rank)) :
    Lockstep post' fun rank => (front rank).bind (f rank) := by
  induction lockstep with
  | done ended =>
      exact later _ ended
  | reduce goesOn ih =>
      exact .reduce ih

/-- When one rank is done, all are. -/
theorem all_done (lockstep : Lockstep post front) {result : β} (done : front rank = .done result) :
    ∃ results, post results ∧ front = fun rank => .done (results rank) := by
  cases lockstep with
  | done ended =>
      exact ⟨_, ended, rfl⟩
  | reduce goesOn =>
      cases done

/-- When one rank issues a collective, all issue it. -/
theorem all_reduce (lockstep : Lockstep post front) {operand : Contribution α}
    (offers : (front rank).Offers operand) :
    ∃ n, ∃ values : Fin p → Vector α n,
      ∃ next : Fin p → Except CollectiveError (Vector α n) → Task α β,
      (front = fun rank => .reduce operand.tag (values rank) (next rank)) ∧
        operand.values = (values rank).toArray ∧
        ∀ total, Totals values total → Lockstep post fun rank => next rank (.ok total) := by
  rcases offers with ⟨n, values, next, issued, operand_eq⟩
  cases lockstep with
  | done ended =>
      cases issued
  | @reduce m tag values' next' goesOn =>
      cases issued
      exact ⟨_, values', next', rfl, operand_eq, goesOn⟩

end Lockstep

namespace Participant

/--
The work of a rank once it has got the outcomes of all rounds that have been
completed, given the number of the current round.
-/
def upcoming (events : List (CollectiveEvent α)) (current : Nat) : Participant α β → Task α β
  | working task => task.quiet
  | waiting (n := n) generation tag values next =>
    if generation = current then (Task.reduce tag values next).quiet
    else
      (next (deliver n (Contribution.verdict (CollectiveEvent.operands generation events)))).quiet
  | departed result => .done result

end Participant

end

namespace CollectiveEvent

/-- The tags and lengths of the collectives that a rank has issued, in their order. -/
def sequence (rank : Nat) (events : List (CollectiveEvent α)) : List (String × Nat) :=
  events.filterMap fun
    | entered _ operand =>
      if operand.rank = rank then some (operand.tag, operand.values.size) else none
    | _ => none

/-- The tags and lengths of the operands of a rank. -/
def ownIssues (rank : Nat) (operands : List (Contribution α)) : List (String × Nat) :=
  (operands.filter fun operand => operand.rank = rank).map fun operand =>
    (operand.tag, operand.values.size)

theorem sequence_append (rank : Nat) (events new : List (CollectiveEvent α)) :
    sequence rank (events ++ new) = sequence rank events ++ sequence rank new :=
  List.filterMap_append

theorem ownIssues_append (rank : Nat) (operands new : List (Contribution α)) :
    ownIssues rank (operands ++ new) = ownIssues rank operands ++ ownIssues rank new := by
  rw [ownIssues, List.filter_append, List.map_append]
  rfl

theorem sequence_entered (rank generation : Nat) (operand : Contribution α) :
    sequence rank [entered generation operand] = ownIssues rank [operand] := by
  by_cases own : operand.rank = rank <;> simp [sequence, ownIssues, own]

/-- What a rank adds to a round that it enters and leaves in one step. -/
theorem operands_entry (generation : Nat) (operand : Contribution α)
    (events : List (CollectiveEvent α)) (rank : Nat) (outcome : Except CollectiveError (Array α)) :
    operands generation
        (events ++ [entered generation operand, received rank generation outcome]) =
      operands generation events ++ [operand] := by
  rw [operands_append]
  simp [operands]

theorem operands_entry_of_ne {generation other : Nat} (different : other ≠ generation)
    (operand : Contribution α) (events : List (CollectiveEvent α)) (rank : Nat)
    (outcome : Except CollectiveError (Array α)) :
    operands other (events ++ [entered generation operand, received rank generation outcome]) =
      operands other events := by
  rw [operands_append]
  simp [operands, Ne.symm different]

theorem sequence_entry (rank generation : Nat) (operand : Contribution α) (leaver : Nat)
    (outcome : Except CollectiveError (Array α)) :
    sequence rank [entered generation operand, received leaver generation outcome] =
      ownIssues rank [operand] := by
  rw [← sequence_entered rank generation]
  rfl

theorem length_ownIssues (rank : Nat) (operands : List (Contribution α)) :
    (ownIssues rank operands).length = (operands.map Contribution.rank).count rank := by
  rw [ownIssues, List.length_map, List.count, List.countP_map, List.countP_eq_length_filter]
  congr 1

theorem exists_of_mem_ownIssues {rank : Nat} {operands : List (Contribution α)}
    {issue : String × Nat} (member : issue ∈ ownIssues rank operands) :
    ∃ operand ∈ operands, (operand.tag, operand.values.size) = issue := by
  rcases List.mem_map.mp member with ⟨operand, own, same⟩
  exact ⟨operand, (List.mem_filter.mp own).1, same⟩

/-- Every rank has issued one collective in a round that all ranks have entered. -/
theorem ownIssues_of_all {size rank : Nat} {operands : List (Contribution α)}
    (all : (operands.map Contribution.rank).Perm (List.range size)) (below : rank < size)
    {issue : String × Nat}
    (agreed : ∀ operand ∈ operands, (operand.tag, operand.values.size) = issue) :
    ownIssues rank operands = [issue] := by
  have once : (ownIssues rank operands).length = 1 := by
    rw [length_ownIssues, all.count_eq,
      List.count_eq_one_of_mem List.nodup_range (List.mem_range.mpr below)]
  rcases List.length_eq_one_iff.mp once with ⟨single, found⟩
  rcases exists_of_mem_ownIssues (found ▸ List.mem_singleton_self single) with
    ⟨operand, member, rfl⟩
  rw [found, agreed operand member]

/-- A rank enters a round at most once, with the collective that the others issue. -/
theorem ownIssues_eq_nil_or {operands : List (Contribution α)}
    (distinct : (operands.map Contribution.rank).Nodup)
    (agreeing : ∀ first ∈ operands, ∀ other ∈ operands, first.Agrees other) (rank other : Nat) :
    ownIssues rank operands = [] ∨ ownIssues other operands = [] ∨
      ownIssues rank operands = ownIssues other operands := by
  have atMostOne : ∀ rank, ownIssues rank operands = [] ∨
      ∃ operand ∈ operands, ownIssues rank operands = [(operand.tag, operand.values.size)] := by
    intro rank
    have once : (ownIssues rank operands).length ≤ 1 := by
      rw [length_ownIssues]
      exact List.nodup_iff_count_le_one.mp distinct rank
    rcases Nat.le_one_iff_eq_zero_or_eq_one.mp once with none | one
    · exact Or.inl (List.length_eq_zero_iff.mp none)
    · rcases List.length_eq_one_iff.mp one with ⟨single, found⟩
      rcases exists_of_mem_ownIssues (found ▸ List.mem_singleton_self single) with
        ⟨operand, member, rfl⟩
      exact Or.inr ⟨operand, member, found⟩
  rcases atMostOne rank with empty | ⟨first, firstMember, first_eq⟩
  · exact Or.inl empty
  · rcases atMostOne other with empty | ⟨second, secondMember, second_eq⟩
    · exact Or.inr (Or.inl empty)
    · rcases agreeing first firstMember second secondMember with ⟨tags, sizes⟩
      rw [first_eq, second_eq, tags, sizes]
      exact Or.inr (Or.inr rfl)

end CollectiveEvent

namespace Cluster

open CollectiveEvent Contribution

variable [Zero α] [Add α]

/--
All ranks are about to carry out the tasks `front`, once they have got the
outcomes of the rounds that have been completed, and no collective has failed.
-/
structure Aligned (front : Fin p → Task α β) (events : List (CollectiveEvent α))
    (cluster : Cluster α β) : Prop where
  upcoming : ∀ (rank : Fin p) (participant : Participant α β),
    cluster.ranks[rank.val]? = some participant →
      participant.upcoming events cluster.round.generation = front rank
  offered : ∀ operand ∈ operands cluster.round.generation events,
    ∃ rank : Fin p, operand.rank = rank.val ∧ (front rank).Offers operand
  /-- No rank departs before all are done. -/
  ending : cluster.round.poisoned = true ∨ 0 < cluster.round.departed →
    ∃ rank result, front rank = .done result
  agreeing : ∀ generation, ∀ first ∈ operands generation events,
    ∀ other ∈ operands generation events, first.Agrees other
  succeeded : ∀ event ∈ events, event.failure? = none
  sequences : ∃ issued, ∀ rank : Fin p, sequence rank events =
    issued ++ ownIssues rank (operands cluster.round.generation events)

theorem aligned_start (task : Seat → Task α β) :
    Aligned (fun rank : Fin p => (task (.of rank)).quiet) [] (start p task) where
  upcoming := by
    intro rank participant found
    rcases List.getElem?_eq_some_iff.mp found with ⟨inside, rfl⟩
    simp only [start, List.getElem_map, List.getElem_finRange]
    rfl
  offered := by
    rintro operand ⟨⟩
  ending := by
    rintro (⟨⟨⟩⟩ | ⟨⟨⟩⟩)
  agreeing := by
    rintro generation first ⟨⟩
  succeeded := by
    rintro event ⟨⟩
  sequences := ⟨[], fun _ => rfl⟩

namespace Aligned

variable {post : (Fin p → β) → Prop} {front : Fin p → Task α β}
  {events : List (CollectiveEvent α)} {cluster : Cluster α β}

/-- Operands that agree have a sum as their verdict. -/
theorem verdict_ok (aligned : Aligned front events cluster) {generation : Nat}
    {operand : Contribution α} (member : operand ∈ operands generation events) :
    verdict (operands generation events) =
      .ok (sum operand.values.size (operands generation events)) := by
  apply verdict_eq_ok_of_agreement (List.ne_nil_of_mem member)
  intro other found
  rcases aligned.agreeing generation other found operand member with ⟨tags, sizes⟩
  exact ⟨tags, sizes⟩

/-- A rank that issues a collective is neither turned away nor does it give up. -/
theorem not_closed (aligned : Aligned front events cluster) (lockstep : Lockstep post front)
    {rank : Fin p} {operand : Contribution α} (offers : (front rank).Offers operand) :
    ¬ (cluster.round.poisoned = true ∨ 0 < cluster.round.departed) := by
  intro closed
  rcases aligned.ending closed with ⟨other, result, done⟩
  rcases lockstep.all_done done with ⟨results, -, rfl⟩
  rcases offers with ⟨n, values, next, issued, -⟩
  cases issued

/-- A step by which no round is completed. -/
theorem withoutCompletion (aligned : Aligned front events cluster) {rank : Nat} {round : Round α}
    {after : Participant α β} {new : List (CollectiveEvent α)} {entering : List (Contribution α)}
    (sameRound : round.generation = cluster.round.generation)
    (own : ∀ self : Fin p, self.val = rank →
      after.upcoming (events ++ new) cluster.round.generation = front self)
    (entered : operands cluster.round.generation new = entering)
    (elsewhere : ∀ generation, generation ≠ cluster.round.generation →
      operands generation new = [])
    (issues : ∀ rank, sequence rank new = ownIssues rank entering)
    (offered : ∀ operand ∈ entering, ∃ rank : Fin p, operand.rank = rank.val ∧
      (front rank).Offers operand)
    (agreeing : ∀ first ∈ operands cluster.round.generation events ++ entering,
      ∀ other ∈ operands cluster.round.generation events ++ entering, first.Agrees other)
    (ending : round.poisoned = true ∨ 0 < round.departed → ∃ rank result, front rank = .done result)
    (succeeded : ∀ event ∈ new, event.failure? = none) :
    Aligned front (events ++ new) ⟨round, cluster.ranks.set rank after⟩ where
  upcoming := by
    intro self participant found
    simp only at found
    rw [sameRound]
    by_cases same : rank = self.val
    · by_cases inside : rank < cluster.ranks.length
      · rw [← same, List.getElem?_set_self inside, Option.some.injEq] at found
        rw [← found]
        exact own self same.symm
      · rw [← same, List.getElem?_eq_none (by simpa using inside)] at found
        cases found
    · rw [List.getElem?_set_ne same] at found
      rw [← aligned.upcoming self participant found]
      cases participant with
      | working task | departed result =>
          rfl
      | waiting generation tag values next =>
          rw [Participant.upcoming, Participant.upcoming]
          split
          · rfl
          next past =>
            rw [operands_append, elsewhere generation past, List.append_nil]
  offered := by
    rw [sameRound, operands_append, entered]
    exact List.forall_mem_append.mpr ⟨aligned.offered, offered⟩
  ending := ending
  agreeing := by
    intro generation
    rw [operands_append]
    by_cases current : generation = cluster.round.generation
    · rw [current, entered]
      exact agreeing
    · rw [elsewhere generation current, List.append_nil]
      exact aligned.agreeing generation
  succeeded := List.forall_mem_append.mpr ⟨aligned.succeeded, succeeded⟩
  sequences := by
    rcases aligned.sequences with ⟨issued, sequences⟩
    refine ⟨issued, ?_⟩
    intro self
    rw [sameRound, sequence_append, sequences self, issues, operands_append, entered,
      ownIssues_append, List.append_assoc]

/-- A step by which no operand is contributed. -/
theorem withoutOperand (aligned : Aligned front events cluster) {rank : Nat} {round : Round α}
    {after : Participant α β} {new : List (CollectiveEvent α)}
    (sameRound : round.generation = cluster.round.generation)
    (own : ∀ self : Fin p, self.val = rank →
      after.upcoming (events ++ new) cluster.round.generation = front self)
    (silent : ∀ event ∈ new, ∀ generation operand, event ≠ .entered generation operand)
    (ending : round.poisoned = true ∨ 0 < round.departed → ∃ rank result, front rank = .done result)
    (succeeded : ∀ event ∈ new, event.failure? = none) :
    Aligned front (events ++ new) ⟨round, cluster.ranks.set rank after⟩ := by
  have noOperands : ∀ generation, operands generation new = [] := by
    intro generation
    rw [List.eq_nil_iff_forall_not_mem]
    intro operand member
    exact silent _ (mem_operands_iff.mp member) generation operand rfl
  apply aligned.withoutCompletion sameRound own (noOperands _) fun generation _ =>
    noOperands generation
  · intro self
    rw [CollectiveEvent.sequence, List.filterMap_eq_nil_iff.mpr]
    · rfl
    · intro event member
      cases event with
      | entered generation operand =>
          exact absurd rfl (silent _ member generation operand)
      | received | refused | departed =>
          rfl
  · rintro operand ⟨⟩
  · rw [List.append_nil]
    exact aligned.agreeing cluster.round.generation
  · exact ending
  · exact succeeded

/-- An operand that is contributed next agrees with those that have been contributed. -/
theorem agrees_of_offers (aligned : Aligned front events cluster) (lockstep : Lockstep post front)
    {rank : Fin p} {operand : Contribution α} (offers : (front rank).Offers operand) :
    ∀ first ∈ operands cluster.round.generation events ++ [operand], operand.Agrees first := by
  intro first member
  rcases List.mem_append.mp member with before | now
  · rcases lockstep.all_reduce offers with ⟨n, values, next, rfl, operand_eq, -⟩
    rcases aligned.offered first before with ⟨other, -, m, values', next', issued, first_eq⟩
    rw [Task.reduce.injEq] at issued
    rcases issued with ⟨rfl, tags, -⟩
    refine ⟨tags, ?_⟩
    rw [operand_eq, first_eq, Vector.size_toArray, Vector.size_toArray]
  · rw [List.mem_singleton.mp now]
    exact ⟨rfl, rfl⟩

/-- The operands of a round agree with each other, also with the one that is contributed next. -/
theorem agreeing_of_offers (aligned : Aligned front events cluster) (lockstep : Lockstep post front)
    {rank : Fin p} {operand : Contribution α} (offers : (front rank).Offers operand) :
    ∀ first ∈ operands cluster.round.generation events ++ [operand],
      ∀ other ∈ operands cluster.round.generation events ++ [operand], first.Agrees other := by
  intro first firstMember other otherMember
  rcases aligned.agrees_of_offers lockstep offers first firstMember with ⟨tags, sizes⟩
  rcases aligned.agrees_of_offers lockstep offers other otherMember with ⟨otherTags, otherSizes⟩
  exact ⟨tags.symm.trans otherTags, sizes.symm.trans otherSizes⟩

/-- The sum is the verdict of a round that ends with an operand that is contributed next. -/
theorem verdict_of_offers (aligned : Aligned front events cluster) (lockstep : Lockstep post front)
    {rank : Fin p} {operand : Contribution α} (offers : (front rank).Offers operand) :
    verdict (operands cluster.round.generation events ++ [operand]) =
      .ok (sum operand.values.size (operands cluster.round.generation events ++ [operand])) := by
  apply verdict_eq_ok_of_agreement (by simp)
  intro other member
  rcases aligned.agrees_of_offers lockstep offers other member with ⟨tags, sizes⟩
  exact ⟨tags.symm, sizes.symm⟩

section

variable {n : Nat} {tag : String} {values : Fin p → Vector α n}
  {next : Fin p → Except CollectiveError (Vector α n) → Task α β}

/-- The operands are the values of the ranks that have contributed them. -/
theorem values_of_offered
    (aligned : Aligned (fun rank => .reduce tag (values rank) (next rank)) events cluster)
    {operand : Contribution α} (member : operand ∈ operands cluster.round.generation events)
    {rank : Fin p} (same : operand.rank = rank.val) : operand.values = (values rank).toArray := by
  rcases aligned.offered operand member with ⟨contributor, rank_eq, k, _, _, issued, operand_eq⟩
  rw [Task.reduce.injEq] at issued
  rcases issued with ⟨rfl, -, found, -⟩
  rw [operand_eq, ← eq_of_heq found, Fin.ext (rank_eq.symm.trans same)]

/-- A rank that waits goes on with the sum once the round is completed. -/
theorem upcoming_of_waits
    (aligned : Aligned (fun rank => .reduce tag (values rank) (next rank)) events cluster)
    {rank : Fin p} {participant : Participant α β}
    (standing : cluster.ranks[rank.val]? = some participant)
    (waits : cluster.waitsFor rank = some cluster.round.generation)
    {later : List (CollectiveEvent α)} {total : Vector α n}
    (decided : verdict (operands cluster.round.generation later) = .ok total.toArray) :
    participant.upcoming later (cluster.round.generation + 1) = next rank (.ok total) := by
  rw [waitsFor_eq_of_getElem? standing] at waits
  have before := aligned.upcoming rank participant standing
  cases participant with
  | working | departed =>
      cases waits
  | @waiting k generation ownTag ownValues ownNext =>
      cases waits
      rw [Participant.upcoming, if_pos rfl] at before
      rcases Task.reduce_of_quiet before with ⟨-, sizes, nexts⟩
      have fits : total.toArray.size = k := by
        rw [total.size_toArray, ← ownValues.size_toArray, sizes, Vector.size_toArray]
      rw [Participant.upcoming, if_neg (Nat.ne_of_lt (Nat.lt_succ_self _)), decided,
        Participant.deliver, dif_pos fits]
      exact nexts total.toArray fits (by simp)

end

/-- The operands of a round that all ranks in lockstep have entered add up to a total. -/
theorem totals_sum {n : Nat} {values : Fin p → Vector α n} {contributions : List (Contribution α)}
    (all : (contributions.map Contribution.rank).Perm (List.range p))
    (own : ∀ operand ∈ contributions, ∀ rank : Fin p, operand.rank = rank.val →
      operand.values = (values rank).toArray) :
    Totals values ⟨sum n contributions, size_sum n contributions⟩ := by
  have below : ∀ operand ∈ contributions, operand.rank < p := by
    intro operand member
    exact List.mem_range.mp (all.mem_iff.mp (List.mem_map_of_mem member))
  refine ⟨contributions.attach.map fun operand => ⟨operand.1.rank, below _ operand.2⟩, ?_, ?_⟩
  · apply (List.map_perm_map_iff Fin.val_injective).mp
    rw [List.map_map, List.map_coe_finRange_eq_range]
    have ranks : contributions.attach.map
        (Fin.val ∘ fun operand => ⟨operand.1.rank, below _ operand.2⟩) =
          contributions.map Contribution.rank := by
      conv_rhs => rw [← List.attach_map_subtype_val contributions, List.map_map]
      rfl
    rw [ranks]
    exact all
  · intro i inside
    have entry : ∀ operand : { operand // operand ∈ contributions },
        operand.1.values.getD i 0 = (values ⟨operand.1.rank, below _ operand.2⟩)[i] := by
      intro operand
      rw [own operand.1 operand.2 ⟨operand.1.rank, below _ operand.2⟩ rfl]
      simp [Array.getD, inside]
    have counted : contributions.attach.foldl
        (fun total operand => total + operand.1.values.getD i 0) 0 = entrySum contributions i := by
      let add (total : α) (operand : Contribution α) : α := total + operand.values.getD i 0
      exact List.foldl_attach (f := add)
    simp only [List.foldl_map, ← entry]
    rw [counted]
    simp [sum]

/-- The rank that enters last completes the round, and all ranks go on with its sum. -/
theorem completion (aligned : Aligned front events cluster) (lockstep : Lockstep post front)
    (coherent : Coherent p events cluster) {rank : Fin p} {n : Nat} {tag : String}
    {values : Vector α n} {next : Except CollectiveError (Vector α n) → Task α β}
    {outcome : Except CollectiveError (Array α)}
    (own : (Task.reduce tag values next).quiet = front rank)
    (idle : cluster.waitsFor rank = none) (healthy : cluster.round.poisoned = false)
    (present : cluster.round.departed = 0) (last : cluster.round.arrived + 1 = p)
    (decided : outcome =
      (cluster.round.withOperand ⟨rank, tag, values.toArray⟩).complete.outcome
        cluster.round.generation) :
    ∃ front', Lockstep post front' ∧ Aligned front'
      (events ++ [entered cluster.round.generation ⟨rank, tag, values.toArray⟩,
        received rank cluster.round.generation (Participant.obtained n outcome)])
      ⟨(cluster.round.withOperand ⟨rank, tag, values.toArray⟩).complete,
        cluster.ranks.set rank (.working (next (Participant.deliver n outcome)))⟩ := by
  have offers : (front rank).Offers ⟨rank, tag, values.toArray⟩ := ⟨n, values, _, own.symm, rfl⟩
  have agreement := aligned.agrees_of_offers lockstep offers
  have agreeing := aligned.agreeing_of_offers lockstep offers
  have verdict_eq := aligned.verdict_of_offers lockstep offers
  rcases lockstep.all_reduce offers with ⟨m, values', next', rfl, -, goesOn⟩
  rcases Task.reduce_of_quiet own with ⟨-, sameValues, ownNext⟩
  have fits : n = m := by
    rw [← values.size_toArray, sameValues, Vector.size_toArray]
  subst fits
  have inside : rank.val < cluster.ranks.length := coherent.length_eq ▸ rank.isLt
  have allEntered := coherent.all_entered ⟨rank, tag, values.toArray⟩ rank.isLt idle healthy last
  have contributed : ∀ operand ∈ operands cluster.round.generation events ++
      [⟨rank, tag, values.toArray⟩], ∀ other : Fin p, operand.rank = other.val →
        operand.values = (values' other).toArray := by
    intro operand member other same
    rcases List.mem_append.mp member with before | now
    · exact aligned.values_of_offered before same
    · rw [List.mem_singleton] at now
      subst now
      rw [sameValues, Fin.ext same]
  let total : Vector α n :=
    ⟨sum n (operands cluster.round.generation events ++ [⟨rank, tag, values.toArray⟩]),
      size_sum _ _⟩
  replace verdict_eq : verdict (operands cluster.round.generation events ++
      [⟨rank, tag, values.toArray⟩]) = .ok total.toArray := by
    rw [verdict_eq, Vector.size_toArray]
  have seen := coherent.obtained_complete decided
  rw [verdict_eq] at seen
  have delivered : Participant.deliver n outcome = .ok total := by
    rw [decided, Round.outcome, coherent.completed_complete, verdict_eq]
    simp [Participant.deliver]
  have newGeneration :
      (cluster.round.withOperand ⟨rank, tag, values.toArray⟩).complete.generation =
        cluster.round.generation + 1 := by
    rw [Round.complete, Round.generation_withOperand]
  have noOperands : ∀ outcome, operands (cluster.round.generation + 1)
      (events ++ [entered cluster.round.generation ⟨rank, tag, values.toArray⟩,
        received rank cluster.round.generation outcome]) = [] := by
    intro outcome
    rw [operands_entry_of_ne (Nat.succ_ne_self _), coherent.unborn _ (Nat.lt_succ_self _)]
  refine ⟨fun other => next' other (.ok total), goesOn total (totals_sum allEntered contributed),
    ?_⟩
  rw [seen, delivered]
  exact {
    upcoming := by
      intro other participant standing
      simp only at standing
      rw [newGeneration]
      by_cases same : rank.val = other.val
      · rw [← same, List.getElem?_set_self inside, Option.some.injEq] at standing
        rw [← standing, Fin.ext same.symm]
        exact ownNext total.toArray (by simp) (by simp)
      · -- everybody else waits for the completed round
        rw [List.getElem?_set_ne same] at standing
        have waits := coherent.others_wait inside idle healthy last other other.isLt (Ne.symm same)
        apply aligned.upcoming_of_waits standing waits
        rw [operands_entry, verdict_eq]
    offered := by
      rw [newGeneration, noOperands]
      rintro operand ⟨⟩
    ending := by
      rw [Round.complete, Round.poisoned_withOperand, Round.departed_withOperand, healthy, present]
      rintro (⟨⟨⟩⟩ | ⟨⟨⟩⟩)
    agreeing := by
      intro generation
      by_cases current : generation = cluster.round.generation
      · rw [current, operands_entry]
        exact agreeing
      · rw [operands_entry_of_ne current]
        exact aligned.agreeing generation
    succeeded := by
      refine List.forall_mem_append.mpr ⟨aligned.succeeded, ?_⟩
      intro event member
      rcases List.mem_pair.mp member with rfl | rfl <;> rfl
    sequences := by
      rcases aligned.sequences with ⟨issued, sequences⟩
      refine ⟨issued ++ [(tag, n)], ?_⟩
      intro self
      have issue : ownIssues self (operands cluster.round.generation events ++
          [⟨rank, tag, values.toArray⟩]) = [(tag, n)] := by
        apply ownIssues_of_all allEntered self.isLt
        intro operand member
        rcases agreement operand member with ⟨tags, sizes⟩
        rw [← tags, ← sizes, values.size_toArray]
      rw [newGeneration, noOperands, sequence_append, sequences, sequence_entry,
        List.append_assoc, ← ownIssues_append, issue]
      exact (List.append_nil _).symm }

/-- Every step of every rank keeps ranks in lockstep aligned. -/
theorem move (aligned : Aligned front events cluster) (lockstep : Lockstep post front)
    (coherent : Coherent p events cluster) {fails : β → Bool} {rank : Nat}
    {new : List (CollectiveEvent α)} {after : Cluster α β}
    (moved : cluster.move fails rank = some (new, after)) :
    ∃ front', Lockstep post front' ∧ Aligned front' (events ++ new) after := by
  rcases moves_of_move moved with ⟨before, round, participant, found, moves, rfl⟩
  have inside : rank < cluster.ranks.length := (List.getElem?_eq_some_iff.mp found).1
  have below : rank < p := coherent.length_eq ▸ inside
  have position := waitsFor_eq_of_getElem? found
  have own := aligned.upcoming ⟨rank, below⟩ before found
  cases moves with
  | depart result =>
      refine ⟨front, lockstep, ?_⟩
      apply aligned.withoutOperand
      · rfl
      · rintro self rfl
        exact own
      · intro event member generation operand
        rw [List.mem_singleton.mp member]
        exact nofun
      · exact fun _ => ⟨⟨rank, below⟩, result, own.symm⟩
      · intro event member
        rw [List.mem_singleton.mp member]
        rfl
  | tell notice next =>
      refine ⟨front, lockstep, ?_⟩
      apply aligned.withoutOperand
      · rfl
      · rintro self rfl
        exact own
      · rintro event ⟨⟩
      · exact aligned.ending
      · rintro event ⟨⟩
  | @refuse n tag values next error closed abandoned =>
      have offers : (front ⟨rank, below⟩).Offers ⟨rank, tag, values.toArray⟩ :=
        ⟨n, values, _, own.symm, rfl⟩
      exact absurd closed (aligned.not_closed lockstep offers)
  | @wait n tag values next healthy present incomplete =>
      have offers : (front ⟨rank, below⟩).Offers ⟨rank, tag, values.toArray⟩ :=
        ⟨n, values, _, own.symm, rfl⟩
      refine ⟨front, lockstep, ?_⟩
      have entering : operands cluster.round.generation
          [entered cluster.round.generation ⟨rank, tag, values.toArray⟩] =
            [⟨rank, tag, values.toArray⟩] := by
        rw [operands_singleton, if_pos rfl]
      refine aligned.withoutCompletion (Round.generation_withOperand _ _) ?_ entering ?_ ?_ ?_ ?_
        ?_ ?_
      · rintro self rfl
        rw [Participant.upcoming, if_pos rfl]
        exact own
      · intro generation different
        rw [operands_singleton, if_neg (Ne.symm different)]
      · exact fun self => sequence_entered self _ _
      · intro operand member
        rw [List.mem_singleton.mp member]
        exact ⟨⟨rank, below⟩, rfl, offers⟩
      · exact aligned.agreeing_of_offers lockstep offers
      · rw [Round.poisoned_withOperand, Round.departed_withOperand]
        exact aligned.ending
      · intro event member
        rw [List.mem_singleton.mp member]
        rfl
  | complete tag values next outcome healthy present last decided =>
      rw [coherent.length_eq] at last
      have self : ∃ self : Fin p, self.val = rank := ⟨⟨rank, below⟩, rfl⟩
      rcases self with ⟨self, rfl⟩
      exact aligned.completion lockstep coherent own position healthy present last decided
  | @collect n generation tag values next past =>
      refine ⟨front, lockstep, ?_⟩
      have joined := coherent.joined rank n generation tag values next found
      rw [Participant.upcoming, if_neg (Ne.symm past)] at own
      apply aligned.withoutOperand
      · rfl
      · rintro self rfl
        rw [← own, coherent.outcome_eq position past]
        rfl
      · intro event member entry operand
        rw [List.mem_singleton.mp member]
        exact nofun
      · exact aligned.ending
      · intro event member
        rw [List.mem_singleton.mp member, coherent.obtained_over found past,
          aligned.verdict_ok joined]
        rfl
  | @abandon n tag values next error hopeless abandoned =>
      have offers : (front ⟨rank, below⟩).Offers ⟨rank, tag, values.toArray⟩ := by
        rw [← own, Participant.upcoming, if_pos rfl]
        exact ⟨n, values, _, rfl, rfl⟩
      exact absurd (hopeless.imp_right And.left) (aligned.not_closed lockstep offers)

/-- The collectives of a rank are those that all ranks have issued, and at most the next one. -/
theorem sequence_prefix (aligned : Aligned front events cluster)
    (coherent : Coherent p events cluster) (rank other : Fin p) :
    sequence rank events <+: sequence other events ∨
      sequence other events <+: sequence rank events := by
  rcases aligned.sequences with ⟨issued, sequences⟩
  rw [sequences, sequences]
  rcases ownIssues_eq_nil_or coherent.distinct
      (aligned.agreeing cluster.round.generation) rank other with empty | empty | same
  · rw [empty, List.append_nil]
    exact Or.inl (List.prefix_append _ _)
  · rw [empty, List.append_nil]
    exact Or.inr (List.prefix_append _ _)
  · rw [same]
    exact Or.inl List.prefix_rfl

/-- When a rank has departed, all ranks have issued the same collectives and end together. -/
theorem departed (aligned : Aligned front events cluster) (lockstep : Lockstep post front)
    {rank : Fin p} {result : β} (left : cluster.ranks[rank.val]? = some (.departed result)) :
    (∃ results, post results ∧ ∀ (other : Fin p) (result : β),
      cluster.ranks[other.val]? = some (.departed result) → result = results other) ∧
        ∀ rank other : Fin p, sequence rank events = sequence other events := by
  have done := aligned.upcoming rank _ left
  rcases lockstep.all_done done.symm with ⟨results, ended, rfl⟩
  constructor
  · refine ⟨results, ended, ?_⟩
    intro other result left
    have same := aligned.upcoming other _ left
    exact (Task.done.inj same)
  · have finished : operands cluster.round.generation events = [] := by
      rw [List.eq_nil_iff_forall_not_mem]
      intro operand member
      rcases aligned.offered operand member with ⟨other, -, n, values, next, issued, -⟩
      cases issued
    rcases aligned.sequences with ⟨issued, sequences⟩
    intro rank other
    rw [sequences, sequences, finished]
    rfl

end Aligned

/-- What ranks in lockstep can have done: no collective fails, and all issue the same. -/
structure InStep (post : (Fin p → β) → Prop) (events : List (CollectiveEvent α))
    (cluster : Cluster α β) : Prop where
  succeeded : ∀ event ∈ events, event.failure? = none
  /-- Of two ranks, one has issued the collectives of the other, and maybe more. -/
  sequences : ∀ rank other : Fin p, sequence rank events <+: sequence other events ∨
    sequence other events <+: sequence rank events
  /-- The results of the ranks that have departed belong together. -/
  results : ∀ (rank : Fin p) (result : β), cluster.ranks[rank.val]? = some (.departed result) →
    ∃ results, post results ∧ ∀ (other : Fin p) (result : β),
      cluster.ranks[other.val]? = some (.departed result) → result = results other
  /-- A run that is over has led all ranks to their end. -/
  ended : (∀ rank, ¬ cluster.CanMove rank) →
    (∃ results, post results ∧
      ∀ rank : Fin p, cluster.ranks[rank.val]? = some (.departed (results rank))) ∧
    ∀ rank other : Fin p, sequence rank events = sequence other events

/-- Under every schedule, ranks in lockstep stay in step. -/
theorem inStep_history {post : (Fin p → β) → Prop} {task : Seat → Task α β} (someone : 0 < p)
    (lockstep : Lockstep post fun rank : Fin p => (task (.of rank)).quiet) (fails : β → Bool)
    (schedule : List Nat) :
    InStep post (history fails p task schedule).1 (history fails p task schedule).2 := by
  have coherent := coherent_history fails p task schedule
  have accounted := accounted_history fails p task schedule
  have reached : ∃ front, Lockstep post front ∧ Aligned front (history fails p task schedule).1
      (history fails p task schedule).2 := by
    let property (events : List (CollectiveEvent α)) (cluster : Cluster α β) : Prop :=
      ∃ front, Lockstep post front ∧ Aligned front events cluster
    apply @coherent_history_induction _ _ _ _ fails p task property
    · exact ⟨_, lockstep, aligned_start task⟩
    · rintro events cluster rank new after coherent ⟨front, lockstep, aligned⟩ moved
      exact aligned.move lockstep coherent moved
  rcases reached with ⟨front, lockstep, aligned⟩
  exact {
    succeeded := aligned.succeeded
    sequences := aligned.sequence_prefix coherent
    results := fun rank result left => (aligned.departed lockstep left).1
    ended := by
      intro stuck
      have left := all_departed_of_stuck coherent accounted stuck
      rcases left 0 someone with ⟨result, first⟩
      have somewhere : (history fails p task schedule).2.ranks[(⟨0, someone⟩ : Fin p).val]? =
        some (.departed result) := first
      rcases aligned.departed lockstep somewhere with
        ⟨⟨results, ended, belong⟩, same⟩
      refine ⟨⟨results, ended, ?_⟩, same⟩
      intro rank
      rcases left rank rank.isLt with ⟨result, found⟩
      rw [found, belong rank result found] }

end Cluster

end ImmersedBody
