import ImmersedBody.Proofs.Ranks.Progress
import ImmersedBody.Proofs.Ranks.Together

/-!
# Ranks that reproduce the only rank

The ranks of a cluster reproduce what the only rank finds if they stay in step under
every schedule, a run ends from wherever a schedule has led to, and every rank ends
with the outcome of the only rank, be it a value or the reason to stop.

The main theorem is `Collective.Joint.reproduces`: in exact arithmetic, the members of
a team that end with the same values, or all for one reason, reproduce the reference.
-/

namespace ImmersedBody

variable {α β : Type} {p : Nat} [Zero α] [Add α]

namespace Cluster

/-- The ranks of a cluster end as the only rank does, however they take turns. -/
structure Reproduces (p : Nat) (work : Seat → Collective α β) : Prop where
  /-- Ranks that have departed have got the outcome of the only rank. -/
  inStep : ∀ (fails : Except (Stop α) β → Bool) (schedule : List Nat),
    let reached := history fails p (fun seat => (work seat).run) schedule
    InStep (fun results : Fin p → Except (Stop α) β => results = fun _ => (work .alone).alone)
      reached.1 reached.2
  /-- A run that is continued ends, and all ranks have departed. -/
  settles : ∀ (fails : Except (Stop α) β → Bool) (schedule : List Nat),
    (settle fails (history fails p (fun seat => (work seat).run) schedule).2).ranks =
      List.replicate p (.departed (work .alone).alone)

theorem reproduces_of_lockstep {work : Seat → Collective α β} (someone : 0 < p)
    (lockstep : Lockstep (fun results => results = fun _ => (work .alone).alone)
      fun rank : Fin p => Task.quiet (work (.of rank)).run) :
    Reproduces p work where
  inStep := inStep_history someone lockstep
  settles := by
    intro fails schedule
    rcases exists_history_of_settle fails p (fun seat => (work seat).run) schedule with
      ⟨more, joined, stuck⟩
    have inStep := inStep_history someone lockstep fails (schedule ++ more)
    have coherent := coherent_history fails p (fun seat => (work seat).run) (schedule ++ more)
    rcases (inStep.ended stuck).1 with ⟨results, rfl, departed⟩
    rw [← joined]
    apply List.ext_getElem?
    intro rank
    by_cases below : rank < p
    · rw [List.getElem?_replicate_of_lt below]
      exact departed ⟨rank, below⟩
    · have outside : (history fails p (fun seat => (work seat).run)
          (schedule ++ more)).2.ranks.length ≤ rank := by
        rw [coherent.length_eq]
        exact Nat.le_of_not_lt below
      rw [List.getElem?_eq_none outside, List.getElem?_eq_none (by simpa using below)]

end Cluster

/-- In exact arithmetic, ranks that end with the same all end as the reference does. -/
theorem Collective.Joint.lockstep_same {works : Team p → Collective α β}
    (joint : Collective.Joint works Same) (additive : ExactAddition α) :
    Lockstep (fun results => results = fun _ => (works none).alone)
      fun rank => Task.quiet (works (some rank)).run := by
  apply (Together.lockstep joint).imp
  rintro results ⟨reference, serial, ended⟩
  have own : (works none).alone = reference := by
    rw [serial additive, Task.alone_quiet]
    rfl
  rw [own]
  rcases ended with ⟨values, found, same⟩ | ⟨stop, -, found⟩
  · funext rank
    have here : results rank = .ok (values (some rank)) := congrFun found (some rank)
    have there : reference = .ok (values none) := congrFun found none
    rw [here, there, same (some rank)]
  · funext rank
    have here : results rank = .error stop := congrFun found (some rank)
    have there : reference = .error stop := congrFun found none
    rw [here, there]

/-- A team that works on one task reproduces its reference. -/
theorem Collective.Joint.reproduces {work : Seat → Collective α β}
    (joint : Collective.Joint (fun member : Team p => work member.seat) Same)
    (additive : ExactAddition α) (someone : 0 < p) : Cluster.Reproduces p work :=
  Cluster.reproduces_of_lockstep someone (joint.lockstep_same additive)

end ImmersedBody
