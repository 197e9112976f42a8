/-!
# Errors of distributed fields
-/

namespace ImmersedBody

/-- Why an operation on a distributed field is refused. -/
inductive FieldError where
  /-- The entry to be written is owned by another rank. -/
  | notOwned (index : Nat)
  /-- The entry is neither owned by nor ghosted on this rank. -/
  | notAvailable (index : Nat)
  /-- The ghost entry was not refreshed after local writes. -/
  | unsynchronized (index : Nat)
  | incompatibleLayouts
  | lengthMismatch (expected found : Nat)
deriving DecidableEq, Repr

/-- The name of an error, by which callers tell errors apart. -/
def FieldError.name : FieldError → String
  | notOwned _ => "NotOwned"
  | notAvailable _ => "NotAvailable"
  | unsynchronized _ => "Unsynchronized"
  | incompatibleLayouts => "IncompatibleLayouts"
  | lengthMismatch _ _ => "LengthMismatch"

/-- The message of an error. -/
def FieldError.message : FieldError → String
  | notOwned index => s!"Entry {index} is not owned by this rank."
  | notAvailable index => s!"Entry {index} is neither owned nor ghosted on this rank."
  | unsynchronized index =>
    s!"Ghost entry {index} is out of date. The vector must be closed before reading ghost entries."
  | incompatibleLayouts => "Vectors have incompatible layouts."
  | lengthMismatch expected found =>
    s!"Length mismatch: expected {expected} values, found {found}."

end ImmersedBody
