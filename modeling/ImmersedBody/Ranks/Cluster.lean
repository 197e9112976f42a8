import ImmersedBody.Ranks.Round
import ImmersedBody.Ranks.Task

/-!
# Clusters of ranks

A cluster carries out one task per rank.  Its ranks take turns in atomic steps of the `Round` that
they share.  Any order of steps is possible in a cluster; `Cluster.run` always lets the rank with
the lowest number move that can.

No step leaves the ranks with as much work as before, so a run ends after finitely many of them.
-/

namespace ImmersedBody

namespace Task

variable {α β : Type}

/-- What is left of a task after it has moved once. -/
inductive Next : Task α β → Task α β → Prop where
  | tell (notice : Notice α) (next : Task α β) : Next next (.tell notice next)
  | reduce {n : Nat} (tag : String) (values : Vector α n)
      (next : Except CollectiveError (Vector α n) → Task α β)
      (outcome : Except CollectiveError (Vector α n)) :
      Next (next outcome) (.reduce tag values next)

theorem wellFounded_next : WellFounded (Next (α := α) (β := β)) :=
  ⟨fun task => by
    induction task with
    | done result => exact ⟨_, fun _ h => nomatch h⟩
    | tell notice next ih =>
      refine ⟨_, fun _ h => ?_⟩
      cases h
      exact ih
    | reduce tag values next ih =>
      refine ⟨_, fun _ h => ?_⟩
      cases h
      exact ih _⟩

end Task

/-- Where a rank of a cluster stands. -/
inductive Participant (α β : Type) where
  | working (task : Task α β)
  | waiting {n : Nat} (generation : Nat) (tag : String) (values : Vector α n)
      (next : Except CollectiveError (Vector α n) → Task α β)
  | departed (result : β)

namespace Participant

variable {α β : Type}

/-- The work that is left. -/
def task : Participant α β → Task α β
  | working task => task
  | waiting _ tag values next => .reduce tag values next
  | departed result => .done result

/-- Whether the rank works, as a number. -/
def activity : Participant α β → Nat
  | working _ => 1
  | _ => 0

/-- The result of a rank that has departed. -/
def result? : Participant α β → Option β
  | departed result => some result
  | _ => none

/-- Whether a rank has less work left: its task has moved, or it has stopped working on it. -/
def Less (a b : Participant α β) : Prop :=
  Prod.Lex Task.Next (· < ·) (a.task, a.activity) (b.task, b.activity)

theorem wellFounded_less : WellFounded (Less (α := α) (β := β)) :=
  InvImage.wf (fun p : Participant α β => (p.task, p.activity))
    (Prod.lex ⟨Task.Next, Task.wellFounded_next⟩ ⟨(· < ·), Nat.lt_wfRel.wf⟩).wf

/-- An outcome as the vector that the rank has room for. -/
def deliver (n : Nat) : Except CollectiveError (Array α) → Except CollectiveError (Vector α n)
  | .ok total => if h : total.size = n then .ok ⟨total, h⟩ else .error .poisoned
  | .error e => .error e

/-- One atomic step of a rank, if it can move. -/
def step [Zero α] [Add α] (fails : β → Bool) (size rank : Nat) (round : Round α) :
    (p : Participant α β) → Option (Round α × { q : Participant α β // q.Less p })
  | working (.done result) =>
    some (round.depart (fails result), ⟨departed result, .right _ Nat.zero_lt_one⟩)
  | working (.tell notice next) =>
    some (round, ⟨working next, .left _ _ (.tell notice next)⟩)
  | working (.reduce (n := n) tag values next) =>
    match round.enter size rank tag values.toArray with
    | (round, .leaves outcome) =>
      some (round, ⟨working (next (deliver n outcome)), .left _ _ (.reduce tag values next _)⟩)
    | (round, .waits generation) =>
      some (round, ⟨waiting generation tag values next, .right _ Nat.zero_lt_one⟩)
  | waiting (n := n) generation tag values next =>
    match round.lookAgain size tag generation with
    | some (round, outcome) =>
      some (round, ⟨working (next (deliver n outcome)), .left _ _ (.reduce tag values next _)⟩)
    | none => none
  | departed _ => none

end Participant

/-- A cluster: what the ranks share, and where each of them stands. -/
structure Cluster (α β : Type) where
  /-- What the ranks share. -/
  round : Round α
  ranks : List (Participant α β)

namespace Cluster

variable {α β : Type}

/-- Whether exactly one rank of a list has less work left. -/
inductive Fewer : List (Participant α β) → List (Participant α β) → Prop where
  | here {p q : Participant α β} (rest : List (Participant α β)) (h : p.Less q) :
      Fewer (p :: rest) (q :: rest)
  | there (p : Participant α β) {rest rest' : List (Participant α β)} (h : Fewer rest rest') :
      Fewer (p :: rest) (p :: rest')

theorem acc_cons {p : Participant α β} {rest : List (Participant α β)}
    (first : Acc Participant.Less p) (others : Acc Fewer rest) : Acc Fewer (p :: rest) := by
  induction first generalizing rest with
  | intro p _ ihFirst =>
    induction others with
    | intro rest others ihOthers =>
      refine ⟨_, fun ranks h => ?_⟩
      cases h with
      | here _ less => exact ihFirst _ less ⟨_, others⟩
      | there _ fewer => exact ihOthers _ fewer

theorem wellFounded_fewer : WellFounded (Fewer (α := α) (β := β)) :=
  ⟨fun ranks => by
    induction ranks with
    | nil => exact ⟨_, fun _ h => nomatch h⟩
    | cons p rest ih => exact acc_cons (Participant.wellFounded_less.apply p) ih⟩

instance : WellFoundedRelation (Cluster α β) where
  rel := InvImage Fewer Cluster.ranks
  wf := InvImage.wf _ wellFounded_fewer

/-- Lets the first rank of a list move that can; the ranks of the list are numbered from `rank`. -/
def moveFirst [Zero α] [Add α] (fails : β → Bool) (size : Nat) (round : Round α) (rank : Nat) :
    (ranks : List (Participant α β)) →
      Option (Round α × { ranks' : List (Participant α β) // Fewer ranks' ranks })
  | [] => none
  | p :: rest =>
    match p.step fails size rank round with
    | some (round, ⟨q, h⟩) => some (round, ⟨q :: rest, .here rest h⟩)
    | none =>
      match moveFirst fails size round (rank + 1) rest with
      | some (round, ⟨rest', h⟩) => some (round, ⟨p :: rest', .there p h⟩)
      | none => none

/-- Lets ranks move until none can. -/
def settle [Zero α] [Add α] (fails : β → Bool) (cluster : Cluster α β) : Cluster α β :=
  match moveFirst fails cluster.ranks.length cluster.round 0 cluster.ranks with
  | some (round, ⟨ranks, _⟩) => settle fails ⟨round, ranks⟩
  | none => cluster
termination_by cluster

/-- A cluster in which every rank is about to carry out its task. -/
def start (size : Nat) (task : Seat → Task α β) : Cluster α β where
  round := .initial
  ranks := (List.finRange size).map fun (rank : Fin size) =>
    .working (task ⟨rank.val, size, rank.isLt⟩)

/--
The results of all ranks in order.  A fault on one of them is a fault of the run; if there are
several, that of the first rank counts.
-/
def run [Zero α] [Add α] (size : Nat) (task : Seat → Task α (Except Fault β)) :
    Except Fault (List β) :=
  if size = 0 then .error .emptyCluster
  else
    let fails : Except Fault β → Bool
      | .ok _ => false
      | .error _ => true
    ((settle fails (start size task)).ranks.filterMap Participant.result?).mapM id

/-- The results of all ranks in order, if so many ranks can be waited for. -/
def run? [Zero α] [Add α] (size : Nat) (task : Seat → Task α (Except Fault β)) :
    Except Fault (List β) :=
  if size * rankBytes ≤ memoryBytes then run size task else .error .tooManyItems

end Cluster

end ImmersedBody
