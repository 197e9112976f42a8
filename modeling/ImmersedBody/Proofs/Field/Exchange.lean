import ImmersedBody.Field.Exchange
import ImmersedBody.Proofs.Field.Access
import ImmersedBody.Proofs.Ranks.Together

/-!
# Exchange of a field, seen from one rank

A rank that gathers a field, or closes it among several ranks, contributes the entries
that it owns to one sum.  How it goes on depends only on this sum.
-/

namespace ImmersedBody.NodalField

variable {α β : Type} [Zero α]

/-- A rank contributes what it owns, and zeros elsewhere. -/
theorem get_contribution (field : NodalField α) {entry : Nat}
    (inside : entry < field.layout.globalLength) :
    (field.layout.Owns entry → field.get entry = .ok field.contribution[entry]) ∧
      (¬ field.layout.Owns entry → field.contribution[entry] = 0) := by
  constructor
  · intro owns
    rcases get_of_owns owns with ⟨_, found⟩
    rw [found]
    simp [contribution, owns]
  · intro foreign
    simp [contribution, foreign]

/-- A rank that is not alone contributes what it owns and takes its ghosts from the sum. -/
theorem exists_refresh {field : NodalField α} {seat : Seat} (several : seat.size ≠ 1)
    {length : Nat} (length_eq : field.layout.globalLength = length) :
    ∃ (values : Vector α length)
      (next : Except CollectiveError (Vector α length) → Task α (Except (Stop α) (NodalField α)))
      (afters : Vector α length → NodalField α),
      Task.quiet (field.close seat).run = .reduce "ghost_sync" values next ∧
      (∀ entry (inside : entry < length),
        (field.layout.Owns entry → field.get entry = .ok values[entry]) ∧
          (¬ field.layout.Owns entry → values[entry] = 0)) ∧
      ∀ total, next (.ok total) = .done (.ok (afters total)) ∧
        (afters total).layout = field.layout ∧ (afters total).synchronized = true ∧
        (∀ entry, field.layout.Owns entry → (afters total).get entry = field.get entry) ∧
        ∀ entry value, (afters total).get entry = .ok value → ¬ field.layout.Owns entry →
          total[entry]? = some value := by
  subst length_eq
  have issued : (field.close seat).run = (field.gather >>= fun whole =>
      pure (field.refreshed whole) : Collective α (NodalField α)).run := by
    rw [close, if_neg several]
  rw [issued]
  refine ⟨field.contribution, _, field.refreshed, rfl, fun _ => field.get_contribution, ?_⟩
  intro total
  refine ⟨rfl, rfl, rfl, ?_, ?_⟩
  · intro entry owns
    rcases get_of_owns owns with ⟨_, before⟩
    have own : (field.refreshed total).layout.Owns entry := owns
    rcases get_of_owns own with ⟨_, now⟩
    rw [before, now]
    rfl
  · intro entry value found foreign
    rcases owns_or_mem_of_get found with owns | ⟨-, -, j, inside, rfl, stored⟩
    · exact absurd owns foreign
    · have below : j < field.layout.ghosts.size := inside
      have bound : field.layout.ghosts[j] < field.layout.globalLength :=
        field.layout.ghost_lt j below
      have copied : (field.refreshed total).ghosts[j]? = some total[field.layout.ghosts[j]] := by
        simp [refreshed, below]
      rw [copied] at stored
      rw [← stored]
      exact Vector.getElem?_eq_getElem bound

/-- A rank that gathers a field contributes what it owns and answers with the sum. -/
theorem exists_gather {field : NodalField α} {length : Nat}
    (length_eq : field.layout.globalLength = length) (answer : Array α → β) :
    ∃ (values : Vector α length)
      (next : Except CollectiveError (Vector α length) → Task α (Except (Stop α) β)),
      Task.quiet (field.gather >>= fun whole => pure (answer whole.toArray) :
        Collective α β).run = .reduce "ghost_sync" values next ∧
      (∀ entry (inside : entry < length),
        (field.layout.Owns entry → field.get entry = .ok values[entry]) ∧
          (¬ field.layout.Owns entry → values[entry] = 0)) ∧
      ∀ total, next (.ok total) = .done (.ok (answer total.toArray)) := by
  subst length_eq
  exact ⟨field.contribution, _, rfl, fun _ => field.get_contribution, fun _ => rfl⟩

end ImmersedBody.NodalField
