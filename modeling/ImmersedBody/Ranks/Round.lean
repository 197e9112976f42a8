import ImmersedBody.Scalar
import ImmersedBody.Ranks.CollectiveError

/-!
# Rounds of collectives

The ranks of a cluster share one `Round`.  Each collective of the cluster is a round: the ranks
enter it one after the other, the last one completes it, and the others leave with its outcome when
they look again.  A rank that departs, because its work is done or because of a fault, cannot enter
any more, so it makes rounds fail that have not been completed.

Every function of this module is one atomic step: entering, looking again, departing.
-/

namespace ImmersedBody

/-- What the ranks of a cluster share. -/
structure Round (α : Type) where
  /-- The number of rounds that have been completed. -/
  generation : Nat
  /-- How many ranks have entered the current round. -/
  arrived : Nat
  departed : Nat
  poisoned : Bool
  /-- The tag of the rank that entered the current round first. -/
  tag : String
  /-- The sum of the contributions so far. -/
  total : Array α
  /-- The first disagreement in the current round. -/
  mismatch : Option CollectiveError
  /-- The round completed last and its outcome. -/
  completed : Option (Nat × Except CollectiveError (Array α))

/-- What becomes of a rank that enters a round or looks again. -/
inductive Passage (α : Type) where
  | leaves (outcome : Except CollectiveError (Array α))
  /-- The rank waits for a round to be completed. -/
  | waits (generation : Nat)

namespace Round

variable {α : Type}

/-- Before any collective. -/
def initial : Round α where
  generation := 0
  arrived := 0
  departed := 0
  poisoned := false
  tag := ""
  total := #[]
  mismatch := none
  completed := none

/-- The round after a rank has departed. -/
def depart (round : Round α) (failed : Bool) : Round α :=
  { round with departed := round.departed + 1, poisoned := round.poisoned || failed }

/-- The outcome of a round that has been completed. -/
def outcome (round : Round α) (generation : Nat) : Except CollectiveError (Array α) :=
  match round.completed with
  | some (completedGeneration, outcome) =>
    if completedGeneration = generation then outcome else .error .poisoned
  | none => .error .poisoned

/--
Looks whether a round has been completed or cannot be completed any more.  Otherwise the rank goes
on waiting.
-/
def lookAgain (round : Round α) (size : Nat) (tag : String) (generation : Nat) :
    Option (Round α × Except CollectiveError (Array α)) :=
  if round.generation = generation then
    if round.poisoned then some (round, .error .poisoned)
    else if 0 < round.departed ∧ size ≤ round.arrived + round.departed then
      some ({ round with poisoned := true },
        .error (.missingParticipants tag round.arrived size))
    else none
  else some (round, round.outcome generation)

/-- The round with the operand of a rank checked against that of the first one. -/
def compare [Zero α] (round : Round α) (rank : Nat) (tag : String) (values : Array α) : Round α :=
  if round.arrived = 0 then
    { round with tag := tag, total := Array.replicate values.size 0, mismatch := none }
  else if round.tag ≠ tag ∨ round.total.size ≠ values.size then
    { round with
      mismatch := round.mismatch <|>
        some (.mismatch rank round.tag round.total.size tag values.size) }
  else round

/-- The round with the values of a rank added, unless the ranks disagree. -/
def contribute [Add α] (round : Round α) (values : Array α) : Round α :=
  match round.mismatch with
  | none => { round with total := round.total.zipWith (· + ·) values, arrived := round.arrived + 1 }
  | some _ => { round with arrived := round.arrived + 1 }

/-- The round with the outcome of the current collective, which all ranks have entered. -/
def complete (round : Round α) : Round α :=
  { round with
    completed := some (round.generation,
      match round.mismatch with
      | some e => .error e
      | none => .ok round.total)
    total := #[]
    mismatch := none
    arrived := 0
    generation := round.generation + 1 }

/-- Enters a collective. -/
def enter [Zero α] [Add α] (round : Round α) (size rank : Nat) (tag : String)
    (values : Array α) : Round α × Passage α :=
  if round.poisoned then (round, .leaves (.error .poisoned))
  else if 0 < round.departed then
    ({ round with poisoned := true },
      .leaves (.error (.missingParticipants tag (round.arrived + 1) size)))
  else
    let entered := (round.compare rank tag values).contribute values
    if entered.arrived = size then
      (entered.complete, .leaves (entered.complete.outcome round.generation))
    else (entered, .waits round.generation)

end Round

end ImmersedBody
