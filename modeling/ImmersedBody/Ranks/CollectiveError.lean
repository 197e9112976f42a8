/-!
# Errors of collective operations

A collective operation is issued by all ranks, with one tag and one operand length.  When the ranks
disagree, or when one of them has stopped taking part, the operation fails.
-/

namespace ImmersedBody

/-- Why a collective operation failed. -/
inductive CollectiveError where
  /-- Two ranks issued different collectives in the same round. -/
  | mismatch (rank : Nat) (expectedTag : String) (expectedLength : Nat) (foundTag : String)
      (foundLength : Nat)
  /-- The collective was issued although another rank had stopped taking part. -/
  | missingParticipants (tag : String) (arrived size : Nat)
  /-- Another rank failed while the collective was under way. -/
  | poisoned
deriving DecidableEq, Repr

/-- The name of an error, by which callers tell errors apart. -/
def CollectiveError.name : CollectiveError → String
  | mismatch _ _ _ _ _ => "CollectiveMismatch"
  | missingParticipants _ _ _ => "MissingParticipants"
  | poisoned => "Poisoned"

/-- The message of a failed collective operation. -/
def CollectiveError.message : CollectiveError → String
  | mismatch rank expectedTag expectedLength foundTag foundLength =>
    s!"Collective mismatch on rank {rank}: expected '{expectedTag}' with {expectedLength} values, "
      ++ s!"found '{foundTag}' with {foundLength} values."
  | missingParticipants tag arrived size =>
    s!"Collective '{tag}' can not complete: only {arrived} of {size} ranks are still "
      ++ "participating."
  | poisoned => "Communicator poisoned by a failure on another rank."

end ImmersedBody
