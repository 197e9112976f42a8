import ImmersedBody.Proofs.Ranks.Together

/-!
# Lists of a team

Every member of a team has a list, and the entries in the same place of these
lists belong together.  What they have in common is described by a list of
kinds: `Columns related kinds lists` says that the entries in every place are
related as the kind in this place says.
-/

namespace ImmersedBody

variable {α κ σ τ β γ : Type} {p : Nat}

/-- The entries in the same place of all lists are related as the kind in this place says. -/
inductive Columns (related : κ → (Team p → τ) → Prop) : List κ → (Team p → List τ) → Prop where
  | nil : Columns related [] fun _ => []
  | cons {kind : κ} {kinds : List κ} {row : Team p → τ} {lists : Team p → List τ}
      (head : related kind row) (tail : Columns related kinds lists) :
      Columns related (kind :: kinds) fun member => row member :: lists member

namespace Columns

variable {related : κ → (Team p → τ) → Prop} {kinds : List κ} {lists : Team p → List τ}

theorem length_eq (columns : Columns related kinds lists) (member : Team p) :
    (lists member).length = kinds.length := by
  induction columns with
  | nil =>
      rfl
  | cons head tail ih =>
      exact congrArg Nat.succ ih

/-- The lists with the entries of one place taken from lists of another sort. -/
theorem map {related' : κ → (Team p → β) → Prop} {f : Team p → τ → β}
    (columns : Columns related kinds lists)
    (each : ∀ kind row, related kind row → related' kind fun member => f member (row member)) :
    Columns related' kinds fun member => (lists member).map (f member) := by
  induction columns with
  | nil =>
      exact .nil
  | cons head tail ih =>
      exact .cons (each _ _ head) ih

/-- What is the same for the entries of every place is the same for the lists. -/
theorem same_map {f : τ → β} (columns : Columns related kinds lists)
    (same : ∀ kind row, related kind row → Same fun member => f (row member)) :
    Same fun member => (lists member).map f := by
  induction columns with
  | nil =>
      exact fun _ => rfl
  | cons head tail ih =>
      exact fun member => congrArg₂ List.cons (same _ _ head member) (ih member)

/-- The kinds and the entries of one member are related place by place. -/
theorem forall₂ {fits : κ → τ → Prop} {member : Team p} (columns : Columns related kinds lists)
    (each : ∀ kind row, related kind row → fits kind (row member)) :
    List.Forall₂ fits kinds (lists member) := by
  induction columns with
  | nil =>
      exact .nil
  | cons head tail ih =>
      exact .cons (each _ _ head) ih

/-- The entries of two members are related place by place. -/
theorem forall₂_members {fits : τ → τ → Prop} {member other : Team p}
    (columns : Columns related kinds lists)
    (each : ∀ kind row, related kind row → fits (row member) (row other)) :
    List.Forall₂ fits (lists member) (lists other) := by
  induction columns with
  | nil =>
      exact .nil
  | cons head tail ih =>
      exact .cons (each _ _ head) ih

/-- There is nothing behind the last kind. -/
theorem getElem?_eq_none (columns : Columns related kinds lists) {i : Nat}
    (outside : kinds[i]? = none) (member : Team p) : (lists member)[i]? = none := by
  rw [List.getElem?_eq_none_iff] at *
  rw [columns.length_eq]
  exact outside

/-- The entries in a place belong together, and others of the same kind can take their place. -/
theorem exists_row (columns : Columns related kinds lists) {i : Nat} {kind : κ}
    (inside : kinds[i]? = some kind) :
    ∃ row, (∀ member, (lists member)[i]? = some (row member)) ∧ related kind row ∧
      ∀ row', related kind row' →
        Columns related kinds fun member => (lists member).set i (row' member) := by
  induction columns generalizing i with
  | nil =>
      cases inside
  | cons head tail ih =>
      cases i with
      | zero =>
          cases inside
          exact ⟨_, fun _ => rfl, head, fun row' other => .cons other tail⟩
      | succ i =>
          rcases ih inside with ⟨row, found, holds, others⟩
          exact ⟨row, found, holds, fun row' other => .cons head (others row' other)⟩

/-- The entries in one place change alike. -/
theorem modify {f : τ → τ} (columns : Columns related kinds lists)
    (keeps : ∀ kind row, related kind row → related kind fun member => f (row member)) (i : Nat) :
    Columns related kinds fun member => (lists member).modify i f := by
  induction columns generalizing i with
  | nil =>
      simp only [List.modify_nil]
      exact .nil
  | cons head tail ih =>
      cases i with
      | zero =>
          exact .cons (keeps _ _ head) tail
      | succ i =>
          exact .cons head (ih i)

/-- The lists with one more entry at their end. -/
theorem concat (columns : Columns related kinds lists) {kind : κ} {row : Team p → τ}
    (last : related kind row) :
    Columns related (kinds ++ [kind]) fun member => lists member ++ [row member] := by
  induction columns with
  | nil =>
      exact .cons last .nil
  | cons head tail ih =>
      exact .cons head ih

end Columns

namespace Action

variable [Zero α] [Add α]

/--
Work on each entry of the lists keeps the entries of every place related if it
does so in every place.  It ends for all members in the same way.
-/
theorem together_onEach {related : κ → (Team p → τ) → Prop} {kinds : List κ}
    {members : Team p → List τ} {action : Team p → Nat → Action α (τ × σ) Unit}
    (columns : Columns related kinds members) :
    ∀ {number : Nat} {shared : Team p → σ},
      (∀ kind part row (shared : Team p → σ), (kind, part) ∈ kinds.zipIdx number →
        related kind row → Joint (fun member => action member part)
          (fun member => (row member, shared member))
          (fun _ after => related kind fun member => (after member).1)
          fun after => related kind fun member => (after member).1) →
      Together
        (fun results => ∃ (outcome : Except (Stop α) Unit) (afters : Team p → List τ)
            (shared : Team p → σ),
          results = (fun member => (outcome, afters member, shared member)) ∧
          (∀ stop, outcome = .error stop → stop.IsRefusal) ∧ Columns related kinds afters)
        fun member => (onEach (action member) number (members member) (shared member)).quiet := by
  induction columns with
  | nil =>
      intro number shared each
      exact .done ⟨.ok (), _, shared, rfl, nofun, .nil⟩
  | @cons kind kinds row lists head tail ih =>
      intro number shared each
      simp only [onEach, Task.quiet_bind]
      have others : ∀ kind part row (shared : Team p → σ),
          (kind, part) ∈ kinds.zipIdx (number + 1) → related kind row →
            Joint (fun member => action member part) (fun member => (row member, shared member))
              (fun _ after => related kind fun member => (after member).1)
              fun after => related kind fun member => (after member).1 := by
        intro kind part row shared found
        exact each kind part row shared (by simp [found])
      apply Together.bind (each kind number row shared (by simp) head)
      rintro results (⟨values, afters, rfl, related⟩ | ⟨stop, afters, refusal, rfl, related⟩)
      · simp only [Task.quiet_bind]
        apply Together.bind (ih others)
        rintro results ⟨outcome, rest, shared, rfl, refusals, columns⟩
        exact .done ⟨outcome, _, shared, rfl, refusals, .cons related columns⟩
      · refine .done ⟨.error stop, _, _, rfl, ?_, .cons related tail⟩
        rintro _ ⟨⟩
        exact refusal

end Action

end ImmersedBody
