import ImmersedBody.Failure
import ImmersedBody.Notice

/-!
# The work of one rank

A structure is distributed over ranks that carry out the same program, each on its part of the
data.  They meet in *collectives*: sums, to which every rank contributes a vector of one length.
A collective has a tag, which names the place in the program that issued it.

The work of a rank is a `Task`: a value that says which notices the rank gives, which collectives
it issues, and how it goes on once it knows the outcome.  What the outcome is depends on the other
ranks, and is none of the task's business.  `Task.alone` runs a task on the only rank there is.
-/

namespace ImmersedBody

/-- The place of a rank among all ranks. -/
structure Seat where
  rank : Nat
  size : Nat
  rank_lt : rank < size
deriving DecidableEq

namespace Seat

/-- The place of a rank, if there are enough of them. -/
def find (rank size : Nat) : Except Fault Seat :=
  if h : rank < size then .ok ⟨rank, size, h⟩ else .error .rankOutOfRange

/-- The place of the only rank. -/
def alone : Seat := ⟨0, 1, by decide⟩

/-- Whether the rank is the first one. -/
def isRoot (seat : Seat) : Bool := seat.rank = 0

end Seat

/-- The work of one rank, as far as other ranks and readers of notices can see it. -/
inductive Task (α β : Type) : Type where
  | done (result : β)
  /-- The rank gives a notice and goes on. -/
  | tell (notice : Notice α) (next : Task α β)
  /-- The rank contributes values to a sum over all ranks and goes on with the outcome. -/
  | reduce {n : Nat} (tag : String) (values : Vector α n)
      (next : Except CollectiveError (Vector α n) → Task α β)

namespace Task

variable {α β γ : Type}

/-- Goes on with the result of a task. -/
def bind : Task α β → (β → Task α γ) → Task α γ
  | done result, f => f result
  | tell notice next, f => tell notice (next.bind f)
  | reduce tag values next, f => reduce tag values fun outcome => (next outcome).bind f

instance : Monad (Task α) where
  pure := done
  bind := bind

@[simp] theorem pure_eq (result : β) : (pure result : Task α β) = done result := rfl

@[simp] theorem bind_eq (task : Task α β) (f : β → Task α γ) : task >>= f = task.bind f := rfl

@[simp] theorem done_bind (result : β) (f : β → Task α γ) : (done result).bind f = f result := rfl

@[simp] theorem tell_bind (notice : Notice α) (next : Task α β) (f : β → Task α γ) :
    (tell notice next).bind f = tell notice (next.bind f) := rfl

@[simp] theorem reduce_bind {n : Nat} (tag : String) (values : Vector α n)
    (next : Except CollectiveError (Vector α n) → Task α β) (f : β → Task α γ) :
    (reduce tag values next).bind f = reduce tag values fun outcome => (next outcome).bind f := rfl

theorem bind_done (task : Task α β) : task.bind done = task := by
  induction task with
  | done result => rfl
  | tell notice next ih => simp [ih]
  | reduce tag values next ih => simp [ih]

theorem bind_assoc {δ : Type} (task : Task α β) (f : β → Task α γ) (g : γ → Task α δ) :
    (task.bind f).bind g = task.bind fun result => (f result).bind g := by
  induction task with
  | done result => rfl
  | tell notice next ih => simp [ih]
  | reduce tag values next ih => simp [ih]

/-- Gives notices in order. -/
def tellAll (notices : List (Notice α)) : Task α Unit :=
  notices.foldr tell (done ())

/-- The sum of the contributions of all ranks. -/
def sum {n : Nat} (tag : String) (values : Vector α n) :
    Task α (Except CollectiveError (Vector α n)) :=
  reduce tag values done

/-- Waits until all ranks have come as far. -/
def barrier (tag : String) : Task α (Except CollectiveError Unit) :=
  reduce tag (#v[] : Vector α 0) fun outcome => done (outcome.map fun _ => ())

/-- The result of a task on the only rank there is: every sum has one summand. -/
def alone : Task α β → β
  | done result => result
  | tell _ next => next.alone
  | reduce _ values next => (next (.ok values)).alone

/-- The same task with its notices in its result instead. -/
def collect : Task α β → Task α (List (Notice α) × β)
  | done result => done ([], result)
  | tell notice next =>
    next.collect.bind fun (notices, result) => done (notice :: notices, result)
  | reduce tag values next => reduce tag values fun outcome => (next outcome).collect

end Task

/-- Work without a state that may stop. -/
abbrev Collective (α : Type) := ExceptT (Stop α) (Task α)

/-- Work on a state that may stop.  What was done to the state before it stops remains done. -/
abbrev Action (α σ : Type) := ExceptT (Stop α) (StateT σ (Task α))

namespace Collective

variable {α : Type}

/-- The sum of the contributions of all ranks, or the failure of the collective. -/
def sum {n : Nat} (tag : String) (values : Vector α n) : Collective α (Vector α n) :=
  ExceptT.mk do
    match ← Task.sum tag values with
    | .ok total => return .ok total
    | .error e => return .error (.because (.collective e))

/-- Waits until all ranks have come as far, or the collective fails. -/
def barrier (tag : String) : Collective α Unit :=
  ExceptT.mk do
    match ← (Task.barrier tag : Task α _) with
    | .ok () => return .ok ()
    | .error e => return .error (.because (.collective e))

end Collective

end ImmersedBody
