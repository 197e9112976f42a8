import ImmersedBody.Ranks.Round

/-!
# The verdict on a round

Every rank contributes one operand to a round.  The verdict on the operands, in
the order in which they arrive, is their element-wise sum, or the first
disagreement with the operand that arrived first.  It mentions no shared state.

`Round.Holds` says that a round has seen exactly the given operands.  Admitting
one more operand appends it, and completing a round yields the verdict.
-/

namespace ImmersedBody

/-- What a rank contributes to a round. -/
structure Contribution (α : Type) where
  rank : Nat
  tag : String
  values : Array α

namespace Contribution

variable {α : Type}

/-- Whether two ranks issued the same collective. -/
def Agrees (first other : Contribution α) : Prop :=
  first.tag = other.tag ∧ first.values.size = other.values.size

instance (first other : Contribution α) : Decidable (first.Agrees other) :=
  inferInstanceAs (Decidable (_ ∧ _))

/-- The error of a rank that issued another collective than the first one. -/
def mismatch (first other : Contribution α) : CollectiveError :=
  .mismatch other.rank first.tag first.values.size other.tag other.values.size

/-- The first disagreement with the operand that arrived first. -/
def disagreement? (first : Contribution α) (rest : List (Contribution α)) :
    Option CollectiveError :=
  (rest.find? fun other => !decide (first.Agrees other)).map first.mismatch

variable [Zero α] [Add α]

/-- The sum of one entry over all operands, in the order of their arrival. -/
def entrySum (operands : List (Contribution α)) (i : Nat) : α :=
  operands.foldl (fun total operand => total + operand.values.getD i 0) 0

/-- The element-wise sum of operands of one length. -/
def sum (length : Nat) (operands : List (Contribution α)) : Array α :=
  Array.ofFn fun i : Fin length => entrySum operands i

/-- The outcome of a round with the given operands. -/
def verdict : List (Contribution α) → Except CollectiveError (Array α)
  | [] => .ok #[]
  | first :: rest =>
    match disagreement? first rest with
    | some error => .error error
    | none => .ok (sum first.values.size (first :: rest))

omit [Zero α] [Add α] in
theorem disagreement?_eq_none_iff {first : Contribution α} {rest : List (Contribution α)} :
    disagreement? first rest = none ↔ ∀ other ∈ rest, first.Agrees other := by
  simp [disagreement?]

omit [Zero α] [Add α] in
theorem disagreement?_append {first other : Contribution α} {rest : List (Contribution α)} :
    disagreement? first (rest ++ [other]) =
      (disagreement? first rest <|>
        if first.Agrees other then none else some (first.mismatch other)) := by
  unfold disagreement?
  rw [List.find?_append]
  cases rest.find? (fun other => !decide (first.Agrees other)) with
  | some found =>
      rfl
  | none =>
      by_cases agrees : first.Agrees other <;> simp [agrees]

@[simp]
theorem size_sum (length : Nat) (operands : List (Contribution α)) :
    (sum length operands).size = length := by
  simp [sum]

theorem entrySum_append (operands : List (Contribution α)) (other : Contribution α) (i : Nat) :
    entrySum (operands ++ [other]) i = entrySum operands i + other.values.getD i 0 := by
  simp [entrySum]

theorem sum_nil (length : Nat) :
    sum length ([] : List (Contribution α)) = Array.replicate length 0 := by
  apply Array.ext
  · simp
  · intro i _ _
    simp [sum, entrySum]

/-- One more operand of the right length is added entry by entry. -/
theorem sum_append {length : Nat} (operands : List (Contribution α)) {other : Contribution α}
    (fits : other.values.size = length) :
    sum length (operands ++ [other]) =
      (sum length operands).zipWith (· + ·) other.values := by
  apply Array.ext
  · simp [fits]
  · intro i below _
    have inside : i < other.values.size := by
      simpa [fits] using below
    simp [sum, entrySum_append, Array.getD, inside]

/-! ## What the verdict says -/

theorem verdict_eq_ok_of_agreement {operands : List (Contribution α)} {tag : String}
    {length : Nat} (nonempty : operands ≠ [])
    (agreement : ∀ operand ∈ operands, operand.tag = tag ∧ operand.values.size = length) :
    verdict operands = .ok (sum length operands) := by
  cases operands with
  | nil =>
      exact absurd rfl nonempty
  | cons first rest =>
      rcases agreement first List.mem_cons_self with ⟨firstTag, firstSize⟩
      have unanimous : disagreement? first rest = none := by
        rw [disagreement?_eq_none_iff]
        intro other member
        rcases agreement other (List.mem_cons_of_mem first member) with ⟨otherTag, otherSize⟩
        exact ⟨firstTag.trans otherTag.symm, firstSize.trans otherSize.symm⟩
      simp [verdict, unanimous, firstSize]

/-- The verdict is a sum, or a mismatch between two of the operands. -/
theorem verdict_cases (operands : List (Contribution α)) :
    (∃ length, verdict operands = .ok (sum length operands) ∧
        ∀ operand ∈ operands, operand.values.size = length) ∨
      ∃ first ∈ operands, ∃ other ∈ operands,
        ¬ first.Agrees other ∧ verdict operands = .error (first.mismatch other) := by
  cases operands with
  | nil =>
      exact Or.inl ⟨0, by simp [verdict, sum], by simp⟩
  | cons first rest =>
      cases found : rest.find? (fun other => !decide (first.Agrees other)) with
      | none =>
          have agreement : ∀ other ∈ rest, first.Agrees other := by
            simpa using found
          refine Or.inl ⟨first.values.size, by simp [verdict, disagreement?, found], ?_⟩
          intro operand member
          rcases List.mem_cons.mp member with rfl | member
          · rfl
          · exact (agreement operand member).2.symm
      | some other =>
          have member : other ∈ first :: rest :=
            List.mem_cons_of_mem first (List.mem_of_find?_eq_some found)
          have disagrees : ¬ first.Agrees other := by
            simpa using List.find?_some found
          exact Or.inr ⟨first, List.mem_cons_self, other, member, disagrees,
            by simp [verdict, disagreement?, found]⟩

/-- The verdict is an error exactly when two operands differ in tag or length. -/
theorem verdict_eq_error_iff {operands : List (Contribution α)} :
    (∃ error, verdict operands = .error error) ↔
      ∃ first ∈ operands, ∃ other ∈ operands,
        first.tag ≠ other.tag ∨ first.values.size ≠ other.values.size := by
  constructor
  · rintro ⟨error, failed⟩
    rcases verdict_cases operands with ⟨length, summed, -⟩ | ⟨first, member, other, otherMember,
      disagrees, -⟩
    · rw [summed] at failed
      cases failed
    · refine ⟨first, member, other, otherMember, ?_⟩
      by_cases tags : first.tag = other.tag
      · exact Or.inr fun sizes => disagrees ⟨tags, sizes⟩
      · exact Or.inl tags
  · rintro ⟨left, leftMember, right, rightMember, differ⟩
    cases operands with
    | nil =>
        simp at leftMember
    | cons first rest =>
        cases found : disagreement? first rest with
        | some error =>
            exact ⟨error, by simp [verdict, found]⟩
        | none =>
            -- all operands agree with the first one, hence with each other
            have agreement : ∀ operand ∈ first :: rest, first.Agrees operand := by
              intro operand member
              rcases List.mem_cons.mp member with rfl | member
              · exact ⟨rfl, rfl⟩
              · exact disagreement?_eq_none_iff.mp found operand member
            have leftAgrees := agreement left leftMember
            have rightAgrees := agreement right rightMember
            rcases differ with tags | sizes
            · exact absurd (leftAgrees.1.symm.trans rightAgrees.1) tags
            · exact absurd (leftAgrees.2.symm.trans rightAgrees.2) sizes

end Contribution

namespace Round

open Contribution

variable {α : Type} [Zero α] [Add α]

/-- The round after a rank has entered it. -/
def withOperand (round : Round α) (operand : Contribution α) : Round α :=
  (round.compare operand.rank operand.tag operand.values).contribute operand.values

/-- The round has seen the given operands, in their order. -/
structure Holds (round : Round α) (operands : List (Contribution α)) : Prop where
  arrived_eq : round.arrived = operands.length
  first : ∀ first rest, operands = first :: rest →
    round.tag = first.tag ∧ round.total.size = first.values.size ∧
      round.mismatch = disagreement? first rest
  total_eq : ∀ first rest, operands = first :: rest → round.mismatch = none →
    round.total = sum first.values.size operands

theorem holds_nil {round : Round α} (empty : round.arrived = 0) : round.Holds [] where
  arrived_eq := empty
  first := by simp
  total_eq := by simp

section

variable (round : Round α) (operand : Contribution α)

@[simp]
theorem arrived_withOperand : (round.withOperand operand).arrived = round.arrived + 1 := by
  unfold withOperand contribute Round.compare
  grind

@[simp]
theorem generation_withOperand : (round.withOperand operand).generation = round.generation := by
  unfold withOperand contribute Round.compare
  grind

@[simp]
theorem departed_withOperand : (round.withOperand operand).departed = round.departed := by
  unfold withOperand contribute Round.compare
  grind

@[simp]
theorem poisoned_withOperand : (round.withOperand operand).poisoned = round.poisoned := by
  unfold withOperand contribute Round.compare
  grind

@[simp]
theorem completed_withOperand : (round.withOperand operand).completed = round.completed := by
  unfold withOperand contribute Round.compare
  grind

end

theorem Holds.withOperand {round : Round α} {operands : List (Contribution α)}
    (holds : round.Holds operands) (operand : Contribution α) :
    (round.withOperand operand).Holds (operands ++ [operand]) := by
  cases operands with
  | nil =>
      -- the first operand sets tag and length and starts the sum
      have empty : round.arrived = 0 := holds.arrived_eq
      have start : round.compare operand.rank operand.tag operand.values =
          { round with
            tag := operand.tag
            total := Array.replicate operand.values.size 0
            mismatch := none } := by
        simp [Round.compare, empty]
      have admitted : round.withOperand operand =
          { round with
            tag := operand.tag
            total := sum operand.values.size [operand]
            mismatch := none
            arrived := round.arrived + 1 } := by
        unfold Round.withOperand
        rw [start, contribute]
        simp only
        rw [← List.nil_append [operand], sum_append [] rfl, sum_nil]
      rw [admitted]
      exact {
        arrived_eq := by simp [empty]
        first := by simp [disagreement?]
        total_eq := by simp }
  | cons first rest =>
      have later : round.arrived ≠ 0 := by simp [holds.arrived_eq]
      rcases holds.first first rest rfl with ⟨tagEqual, sizeEqual, mismatchEqual⟩
      have compared : round.compare operand.rank operand.tag operand.values =
          { round with mismatch := disagreement? first (rest ++ [operand]) } := by
        rw [disagreement?_append, ← mismatchEqual]
        unfold Round.compare
        rw [if_neg later]
        by_cases agrees : first.Agrees operand
        · have same : ¬ (round.tag ≠ operand.tag ∨ round.total.size ≠ operand.values.size) := by
            simp [tagEqual, sizeEqual, agrees.1, agrees.2]
          simp [if_neg same, agrees]
        · have different : round.tag ≠ operand.tag ∨
              round.total.size ≠ operand.values.size := by
            rw [tagEqual, sizeEqual]
            by_cases tags : first.tag = operand.tag
            · exact Or.inr fun sizes => agrees ⟨tags, sizes⟩
            · exact Or.inl tags
          rw [if_pos different, tagEqual, sizeEqual, if_neg agrees]
          rfl
      unfold Round.withOperand
      rw [compared]
      cases found : disagreement? first (rest ++ [operand]) with
      | some error =>
          exact {
            arrived_eq := by simp [contribute, holds.arrived_eq]
            first := by
              rintro _ _ ⟨⟩
              exact ⟨tagEqual, sizeEqual, found.symm⟩
            total_eq := by
              rintro _ _ ⟨⟩ agreed
              simp [contribute] at agreed }
      | none =>
          have unanimous := disagreement?_eq_none_iff.mp found
          have agrees : first.Agrees operand := unanimous operand (by simp)
          have agreed : round.mismatch = none := by
            rw [mismatchEqual, disagreement?_eq_none_iff]
            exact fun other member => unanimous other (List.mem_append_left _ member)
          have total := holds.total_eq first rest rfl agreed
          have summed : round.total.zipWith (· + ·) operand.values =
              sum first.values.size (first :: rest ++ [operand]) := by
            rw [total, sum_append _ agrees.2.symm]
          exact {
            arrived_eq := by simp [contribute, holds.arrived_eq]
            first := by
              rintro _ _ ⟨⟩
              refine ⟨tagEqual, ?_, found.symm⟩
              simp only [contribute, summed, size_sum]
            total_eq := by
              rintro _ _ ⟨⟩ -
              simp only [contribute, summed] }

/-- A round that is completed has the verdict on its operands as its outcome. -/
theorem Holds.completed_complete {round : Round α} {operands : List (Contribution α)}
    (holds : round.Holds operands) (nonempty : operands ≠ []) :
    round.complete.completed = some (round.generation, verdict operands) := by
  cases operands with
  | nil =>
      exact absurd rfl nonempty
  | cons first rest =>
      rcases holds.first first rest rfl with ⟨-, -, mismatchEqual⟩
      simp only [complete, verdict]
      rw [← mismatchEqual]
      cases found : round.mismatch with
      | some error =>
          rfl
      | none =>
          rw [holds.total_eq first rest rfl found]

end Round

end ImmersedBody
