import ImmersedBody.Proofs.Ranks.Coherence

/-!
# Agreement on the rounds of a cluster

Whatever the tasks of the ranks are and in whatever order the ranks move, every
round is either decided or undecided.  On a decided round all ranks get one
verdict: the sum of the operands of this round, or a mismatch between two of
them.  An undecided round has no outcome that any rank could get to see.

The main theorem is `every_round_decided_or_undecided`.
-/

namespace ImmersedBody.Cluster

open CollectiveEvent Contribution

variable {α β : Type} [Zero α] [Add α]

/-- A round that was completed, and on which all ranks get the same verdict. -/
structure Decided (fails : β → Bool) (size generation : Nat)
    (events : List (CollectiveEvent α)) (cluster : Cluster α β) : Prop where
  /-- Every rank contributed one operand. -/
  contributors : ((operands generation events).map Contribution.rank).Perm (List.range size)
  /-- The verdict is the sum in the order of arrival, or a mismatch of two operands. -/
  outcome :
    (∃ length, (∀ operand ∈ operands generation events, operand.values.size = length) ∧
        verdict (operands generation events) = .ok (sum length (operands generation events))) ∨
      ∃ first ∈ operands generation events, ∃ other ∈ operands generation events,
        verdict (operands generation events) = .error (first.mismatch other)
  /-- It is a mismatch exactly when two operands differ in their tag or length. -/
  mismatch_iff :
    (∃ error, verdict (operands generation events) = .error error) ↔
      ∃ first ∈ operands generation events, ∃ other ∈ operands generation events,
        first.tag ≠ other.tag ∨ first.values.size ≠ other.values.size
  /-- Every rank has left with the verdict, once, or does so as soon as it moves again. -/
  delivered : ∀ rank < size,
    receipts rank generation events = [verdict (operands generation events)] ∨
      receipts rank generation events = [] ∧
        cluster.round.completed = some (generation, verdict (operands generation events)) ∧
        ∃ after, cluster.move fails rank =
          some ([received rank generation (verdict (operands generation events))], after)

/-- A round that was not completed, and of which no rank has seen an outcome. -/
structure Undecided (generation : Nat) (events : List (CollectiveEvent α))
    (cluster : Cluster α β) : Prop where
  /-- Ranks that wait for the round wait for the one that collects operands. -/
  current : ∀ rank, cluster.waitsFor rank = some generation →
    cluster.round.generation = generation
  /-- Ranks that left the round left it because it was abandoned. -/
  unseen : ∀ rank outcome, received rank generation outcome ∈ events →
    ∃ error : CollectiveError, outcome = .error error ∧ error.IsAbandonment

/-- A rank that waits for a round that is over collects its outcome as soon as it moves. -/
theorem move_eq_of_over {fails : β → Bool} {cluster : Cluster α β} {rank n generation : Nat}
    {tag : String} {values : Vector α n}
    {next : Except CollectiveError (Vector α n) → Task α β}
    (found : cluster.ranks[rank]? = some (.waiting generation tag values next))
    (past : cluster.round.generation ≠ generation) :
    cluster.move fails rank =
      some ([received rank generation
          (Participant.obtained n (cluster.round.outcome generation))],
        ⟨cluster.round, cluster.ranks.set rank
          (.working (next (Participant.deliver n (cluster.round.outcome generation))))⟩) := by
  rw [Cluster.move, found]
  simp [Participant.step, Participant.events, Round.lookAgain, past]

namespace Coherent

variable {size : Nat} {events : List (CollectiveEvent α)} {cluster : Cluster α β}

/-- A rank that is late for a completed round finds the verdict when it moves. -/
theorem move_late (coherent : Coherent size events cluster) (fails : β → Bool)
    {rank generation : Nat} (waits : cluster.waitsFor rank = some generation)
    (past : cluster.round.generation ≠ generation) :
    ∃ after, cluster.move fails rank =
      some ([received rank generation (verdict (operands generation events))], after) := by
  rcases Option.bind_eq_some_iff.mp waits with ⟨participant, found, position⟩
  cases participant with
  | working task =>
      cases position
  | departed result =>
      cases position
  | @waiting n own tag values next =>
      cases position
      have moved : cluster.move fails rank = some _ := move_eq_of_over found past
      rw [coherent.obtained_over found past] at moved
      exact ⟨_, moved⟩

/-- Completed rounds are decided. -/
theorem decided (coherent : Coherent size events cluster) (fails : β → Bool)
    {generation : Nat} (below : generation < cluster.round.generation) :
    Decided fails size generation events cluster where
  contributors := coherent.everyone generation below
  outcome := by
    rcases verdict_cases (operands generation events) with
      ⟨length, summed, sizes⟩ | ⟨first, member, other, otherMember, -, failed⟩
    · exact Or.inl ⟨length, sizes, summed⟩
    · exact Or.inr ⟨first, member, other, otherMember, failed⟩
  mismatch_iff := verdict_eq_error_iff
  delivered := by
    intro rank member
    have got := coherent.settled generation below rank member
    by_cases waits : cluster.waitsFor rank = some generation
    · right
      rw [if_pos waits] at got
      have kept := (coherent.kept rank generation waits (Nat.ne_of_lt below)).2
      exact ⟨got, kept, coherent.move_late fails waits (Nat.ne_of_gt below)⟩
    · left
      rw [if_neg waits] at got
      exact got

/-- The current round and later ones are undecided. -/
theorem undecided (coherent : Coherent size events cluster) {generation : Nat}
    (above : cluster.round.generation ≤ generation) : Undecided generation events cluster where
  current := by
    intro rank waits
    by_contra past
    rcases coherent.kept rank generation waits (Ne.symm past) with ⟨previous, -⟩
    omega
  unseen := by
    intro rank outcome member
    exact (coherent.abandoned generation above rank outcome (mem_receipts_iff.mpr member)).2

end Coherent

/--
For all tasks of the ranks and under every schedule, each round is decided or undecided.
-/
theorem every_round_decided_or_undecided (fails : β → Bool) (size : Nat)
    (task : Seat → Task α β) (schedule : List Nat) (generation : Nat) :
    Decided fails size generation (history fails size task schedule).1
        (history fails size task schedule).2 ∨
      Undecided generation (history fails size task schedule).1
        (history fails size task schedule).2 := by
  have coherent := coherent_history fails size task schedule
  rcases Nat.lt_or_ge generation (history fails size task schedule).2.round.generation with
    below | above
  · exact Or.inl (coherent.decided fails below)
  · exact Or.inr (coherent.undecided above)

end ImmersedBody.Cluster
