import Mathlib.Algebra.BigOperators.Group.List.Basic
import Mathlib.Algebra.GroupWithZero.Nat

/-!
# Lists in blocks

A list that strings together one block for each member of another list.  A block begins
behind the blocks in front of it, so an entry is found by its block and its place there:
`getElem?_flatMap_block`.  All entries are found in this way: `exists_block`.
-/

namespace ImmersedBody

variable {β γ : Type}

/-- Where the block with a number begins, if the blocks have the given sizes. -/
def blockStart (sizes : List Nat) (number : Nat) : Nat :=
  (sizes.take number).sum

@[simp]
theorem blockStart_zero (sizes : List Nat) : blockStart sizes 0 = 0 := by
  simp [blockStart]

@[simp]
theorem blockStart_cons_succ (size : Nat) (sizes : List Nat) (number : Nat) :
    blockStart (size :: sizes) (number + 1) = size + blockStart sizes number := by
  simp [blockStart]

/-- An entry is found by its block and its place there. -/
theorem getElem?_flatMap_block {f : β → List γ} {place : Nat} {members : List β} {number : Nat}
    (below : ∀ x, members[number]? = some x → place < (f x).length) :
    (members.flatMap f)[blockStart (members.map fun x => (f x).length) number + place]? =
      members[number]?.bind fun x => (f x)[place]? := by
  induction members generalizing number with
  | nil =>
      simp
  | cons first rest ih =>
      rw [List.flatMap_cons, List.map_cons]
      cases number with
      | zero =>
          rw [blockStart_zero, Nat.zero_add, List.getElem?_append_left (below first rfl)]
          rfl
      | succ number =>
          rw [blockStart_cons_succ, Nat.add_assoc, List.getElem?_append_right (Nat.le_add_right _ _),
            Nat.add_sub_cancel_left, ih below]
          rfl

/-- Every entry stands in a block. -/
theorem exists_block {f : β → List γ} {members : List β} {entry : Nat}
    (inside : entry < (members.flatMap f).length) :
    ∃ number x place, members[number]? = some x ∧ place < (f x).length ∧
      entry = blockStart (members.map fun x => (f x).length) number + place := by
  induction members generalizing entry with
  | nil =>
      cases inside
  | cons first rest ih =>
      by_cases here : entry < (f first).length
      · exact ⟨0, first, entry, rfl, here, by simp⟩
      · rw [List.flatMap_cons, List.length_append] at inside
        have later : entry - (f first).length < (rest.flatMap f).length := by omega
        rcases ih later with ⟨number, x, place, found, below, behind⟩
        refine ⟨number + 1, x, place, found, below, ?_⟩
        rw [List.map_cons, blockStart_cons_succ]
        omega

/-- Blocks of one size begin at its multiples. -/
theorem blockStart_of_length {f : β → List γ} {size : Nat} (sizes : ∀ x, (f x).length = size)
    {members : List β} {number : Nat} (inside : number ≤ members.length) :
    blockStart (members.map fun x => (f x).length) number = number * size := by
  simp [blockStart, sizes, inside]

/-- In blocks of one size an entry is found by the number of its block and its place there. -/
theorem getElem?_flatMap_of_length {f : β → List γ} {size place : Nat}
    (sizes : ∀ x, (f x).length = size) (below : place < size) (members : List β) (number : Nat) :
    (members.flatMap f)[number * size + place]? =
      members[number]?.bind fun x => (f x)[place]? := by
  by_cases inside : number < members.length
  · rw [← blockStart_of_length sizes (Nat.le_of_lt inside)]
    exact getElem?_flatMap_block fun x _ => by rwa [sizes]
  · have behind : members.length * size ≤ number * size :=
      Nat.mul_le_mul_right size (Nat.not_lt.mp inside)
    have length : (members.flatMap f).length = members.length * size := by simp [sizes]
    rw [List.getElem?_eq_none (Nat.not_lt.mp inside), List.getElem?_eq_none (by omega)]
    rfl

end ImmersedBody
