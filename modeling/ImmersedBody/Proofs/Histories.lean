/-!
# Histories

What happens in a run is listed in the order in which it happens.  A property of
a history speaks of the events before and after an event, as it is split into
`before ++ event :: after`.  The lemmas here say where such an event stands when
a history is continued.
-/

namespace ImmersedBody

variable {τ : Type}

/-- An element of two lists in a row stands in one of them. -/
theorem split_of_append {front back before after : List τ} {x : τ}
    (split : front ++ back = before ++ x :: after) :
    (∃ between, after = between ++ back ∧ front = before ++ x :: between) ∨
      ∃ between, before = front ++ between ∧ back = between ++ x :: after := by
  rcases List.append_eq_append_iff.mp split with ⟨between, rfl, rfl⟩ | ⟨between, rfl, rest⟩
  · exact Or.inr ⟨between, rfl, rfl⟩
  · cases between with
    | nil =>
        exact Or.inr ⟨[], by simp, rest.symm⟩
    | cons y between =>
        rw [List.cons_append, List.cons.injEq] at rest
        rcases rest with ⟨rfl, rfl⟩
        exact Or.inl ⟨between, rfl, rfl⟩

/-- An element of a list and one more element stands in the list, or it is the last one. -/
theorem split_of_concat {front before after : List τ} {x y : τ}
    (split : front ++ [y] = before ++ x :: after) :
    (∃ between, after = between ++ [y] ∧ front = before ++ x :: between) ∨
      before = front ∧ x = y ∧ after = [] := by
  rcases split_of_append split with earlier | ⟨between, rfl, rest⟩
  · exact Or.inl earlier
  · cases between with
    | nil =>
        cases rest
        exact Or.inr ⟨List.append_nil front, rfl, rfl⟩
    | cons z between =>
        exact absurd (congrArg List.length rest) (by simp)

/-- What follows the last occurrence of an element is determined. -/
theorem eq_of_last {x : τ} {front front' back back' : List τ}
    (split : front ++ x :: back = front' ++ x :: back') (fresh : x ∉ back) (fresh' : x ∉ back') :
    back = back' := by
  rcases split_of_append split with ⟨between, rfl, -⟩ | ⟨between, -, rest⟩
  · exact absurd (List.mem_append_right between List.mem_cons_self) fresh'
  · cases between with
    | nil =>
        exact (List.cons.inj rest).2
    | cons y between =>
        rw [List.cons_append, List.cons.injEq] at rest
        rw [rest.2] at fresh
        exact absurd (List.mem_append_right between List.mem_cons_self) fresh

end ImmersedBody
