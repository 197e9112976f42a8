import ImmersedBody.Proofs.Ranks.Together
import Mathlib.Algebra.BigOperators.Group.List.Basic

/-!
# Sums in exact arithmetic

If the order of addition does not matter, a sum over the ranks is the sum of all
that the ranks have added up.  Where the items of the ranks are together those of
the reference, `adds_of_items` says that the sum is that of the reference; where
all ranks but one contribute zero, `Totals.eq_of_single` says that it is what this
one contributes.
-/

namespace ImmersedBody

variable {α τ β : Type} {p n : Nat}

namespace ExactAddition

variable [Zero α] [Add α]

theorem associative (additive : ExactAddition α) :
    Std.Associative (fun a b : α => a + b) :=
  ⟨additive.assoc⟩

theorem commutative (additive : ExactAddition α) :
    Std.Commutative (fun a b : α => a + b) :=
  ⟨additive.comm⟩

theorem add_zero (additive : ExactAddition α) (a : α) : a + 0 = a := by
  rw [additive.comm, additive.zero_add]

theorem lawfulIdentity (additive : ExactAddition α) :
    Std.LawfulIdentity (fun a b : α => a + b) 0 where
  left_id := additive.zero_add
  right_id := additive.add_zero

/-- A sum from the first to the last term. -/
theorem foldl_eq_sum (additive : ExactAddition α) (items : List τ) (f : τ → α) :
    items.foldl (fun sum item => sum + f item) 0 = (items.map f).sum := by
  have := additive.associative
  have := additive.lawfulIdentity
  rw [List.sum_eq_foldl, List.foldl_map]

/-- What is accumulated item by item is the sum of what the items contribute. -/
theorem getElem_foldl (additive : ExactAddition α) {accumulate : β → τ → β} {start : β}
    {view : β → Vector α n} {measure : τ → Vector α n}
    (empty : ∀ i (_ : i < n), (view start)[i] = 0)
    (step : ∀ state item i (_ : i < n),
      (view (accumulate state item))[i] = (view state)[i] + (measure item)[i])
    (items : List τ) {i : Nat} (inside : i < n) :
    (view (items.foldl accumulate start))[i] =
      (items.map fun item => (measure item)[i]).sum := by
  rw [← additive.foldl_eq_sum items fun item => (measure item)[i], ← empty i inside]
  exact (List.foldl_hom (fun state => (view state)[i]) fun state item =>
    (step state item i inside).symm).symm

theorem sum_eq_of_perm (additive : ExactAddition α) {items others : List α}
    (perm : items.Perm others) : items.sum = others.sum := by
  have := additive.associative
  have := additive.commutative
  have := additive.lawfulIdentity
  rw [List.sum_eq_foldl, List.sum_eq_foldl]
  exact perm.foldl_op_eq

theorem sum_flatMap (additive : ExactAddition α) (items : List τ) (parts : τ → List α) :
    (items.flatMap parts).sum = (items.map fun item => (parts item).sum).sum := by
  have := additive.associative
  have := additive.lawfulIdentity
  rw [List.flatMap_def, List.sum_flatten, List.map_map]
  rfl

end ExactAddition

variable [Zero α] [Add α]

/-- The sum over the ranks in any order is that in their own order. -/
theorem Totals.getElem_eq (additive : ExactAddition α) {values : Fin p → Vector α n}
    {total : Vector α n} (totals : Totals values total) {i : Nat} (inside : i < n) :
    total[i] = ((List.finRange p).map fun rank => (values rank)[i]).sum := by
  rcases totals with ⟨order, perm, summed⟩
  rw [summed i inside, additive.foldl_eq_sum order fun rank => (values rank)[i]]
  exact additive.sum_eq_of_perm (perm.map _)

/-- A sum to which only one rank contributes, if adding zero changes nothing. -/
theorem Totals.eq_of_only (zero_add : ∀ a : α, 0 + a = a) (add_zero : ∀ a : α, a + 0 = a)
    {values : Fin p → Vector α n} {total : Vector α n} (totals : Totals values total) {i : Nat}
    (inside : i < n) {rank : Fin p} (others : ∀ other, other ≠ rank → (values other)[i] = 0) :
    total[i] = (values rank)[i] := by
  have vanishes : ∀ (ranks : List (Fin p)) (start : α), rank ∉ ranks →
      ranks.foldl (fun sum other => sum + (values other)[i]) start = start := by
    intro ranks
    induction ranks with
    | nil =>
        exact fun _ _ => rfl
    | cons other ranks ih =>
        intro start absent
        rcases List.ne_and_not_mem_of_not_mem_cons absent with ⟨different, absentLater⟩
        rw [List.foldl_cons, others other (Ne.symm different), add_zero, ih start absentLater]
  rcases totals with ⟨order, perm, summed⟩
  have member : rank ∈ order := perm.mem_iff.mpr (List.mem_finRange rank)
  rcases List.append_of_mem member with ⟨before, after, rfl⟩
  have distinct := perm.nodup_iff.mpr (List.nodup_finRange p)
  have absent := (List.nodup_cons.mp (List.nodup_middle.mp distinct)).1
  rw [summed i inside, List.foldl_append, List.foldl_cons, vanishes before, zero_add,
    vanishes after]
  · exact fun found => absent (List.mem_append_right before found)
  · exact fun found => absent (List.mem_append_left after found)

theorem Totals.eq_of_single (additive : ExactAddition α) {values : Fin p → Vector α n}
    {total : Vector α n} (totals : Totals values total) {i : Nat} (inside : i < n) {rank : Fin p}
    (others : ∀ other, other ≠ rank → (values other)[i] = 0) : total[i] = (values rank)[i] :=
  totals.eq_of_only additive.zero_add additive.add_zero inside others

/-- Every entry is a sum over items, and the items of the ranks are those of the reference. -/
theorem adds_of_items {values : Team p → Vector α n} {items : Team p → List τ}
    {measure : τ → Vector α n}
    (complete : ExactAddition α →
      ((List.finRange p).flatMap fun rank => items (some rank)).Perm (items none))
    (summed : ExactAddition α → ∀ member i (_ : i < n),
      (values member)[i] = ((items member).map fun item => (measure item)[i]).sum) :
    Adds values := by
  intro additive total totals
  ext i inside
  rw [totals.getElem_eq additive inside, summed additive none i inside]
  calc ((List.finRange p).map fun rank => (values (some rank))[i]).sum
      = ((List.finRange p).map fun rank =>
          ((items (some rank)).map fun item => (measure item)[i]).sum).sum := by
        congr 2
        funext rank
        exact summed additive (some rank) i inside
    _ = ((List.finRange p).flatMap fun rank =>
          (items (some rank)).map fun item => (measure item)[i]).sum :=
        (additive.sum_flatMap _ _).symm
    _ = (((List.finRange p).flatMap fun rank => items (some rank)).map fun item =>
          (measure item)[i]).sum := by
        rw [List.map_flatMap]
    _ = ((items none).map fun item => (measure item)[i]).sum :=
        additive.sum_eq_of_perm ((complete additive).map _)

end ImmersedBody
