import ImmersedBody.Field.Error
import ImmersedBody.Limits
import ImmersedBody.Ranks.CollectiveError
import ImmersedBody.Restart.Record
import ImmersedBody.Settings
import ImmersedBody.TimeStep.Violation

/-!
# Failures and faults

An operation stops for one of two reasons.  A *failure* has a cause that a caller can meet, and the
attempts in which it arose.  A *fault* is a mistake in a program that calls the library: an operand
that the operation is not defined for.
-/

namespace ImmersedBody

/-- What was being attempted when a cause arose. -/
inductive Attempt where
  | setUp (part : Nat)
  | computeMass (part : Nat)
  | computeHalfMass (part : Nat)
  | preprocess
  | postprocess
  | requestInterpolation
  | interpolate
  | interpolateOnto (part : Nat)
  | getVelocity
  | advance (rule : AdvanceRule)
  | setForce
  | matchForce (part : Nat)
  | getForce
  | computeForce
  | integrateForce (part : Nat)
  | setBodyVelocity
  | evaluateVelocity (part : Nat)
  | updateVelocity
  | setVelocity
  | spread
  | spreadFrom (part : Nat)
  | restore
deriving DecidableEq, Repr

/-- The words for an attempt. -/
def Attempt.message : Attempt → String
  | setUp part => s!"failed to set up structure {part}"
  | computeMass part => s!"failed to compute mass properties of structure {part}"
  | computeHalfMass part => s!"failed to compute half-time mass properties of structure {part}"
  | preprocess => "failed to preprocess time step"
  | postprocess => "failed to postprocess time step"
  | requestInterpolation => "failed to request velocity interpolation"
  | interpolate => "failed to interpolate velocity"
  | interpolateOnto part => s!"velocity interpolation failed for structure {part}"
  | getVelocity => "failed to get interpolated velocity"
  | advance rule => "failed to advance positions with the " ++ rule.message ++ " rule"
  | setForce => "failed to set constraint force"
  | matchForce part => s!"incompatible constraint force for structure {part}"
  | getForce => "failed to get constraint force"
  | computeForce => "failed to compute generalized force"
  | integrateForce part => s!"failed to integrate generalized force of structure {part}"
  | setBodyVelocity => "failed to set rigid body velocity"
  | evaluateVelocity part => s!"nodal velocity evaluation failed for structure {part}"
  | updateVelocity => "failed to update rigid velocity"
  | setVelocity => "failed to set rigid velocity"
  | spread => "failed to spread force"
  | spreadFrom part => s!"force spreading failed for structure {part}"
  | restore => "failed to restore from restart record"

/-- What made an operation fail. -/
inductive Cause (α : Type) where
  | violation (violation : Violation α)
  | field (error : FieldError)
  | collective (error : CollectiveError)
  | restart (error : RestartError)
  | settings (error : SettingsError α)
  | nonPositiveVolume (volume : α)
  | cellCountMismatch (positionCells forceCells : Nat)
  /-- The fields of a structure that exist only during a step are missing. -/
  | noStepData (part : Nat)
  /-- The fields to be committed at the end of a step are missing. -/
  | nothingToCommit (objectName : String) (part : Nat)
  | forcesNotAllocated (objectName : String)
  /-- The rigid velocity is fixed during a step. -/
  | velocityFixed (objectName : String) (part : Nat)
  /-- Records are taken back between steps only. -/
  | restoreDuringStep (objectName : String)
  /-- A cause from outside of the library, in words. -/
  | external (message : String)
deriving DecidableEq

/-- The message of a cause. -/
def Cause.message : Cause Float → String
  | violation v => v.message
  | field e => e.message
  | collective e => e.message
  | restart e => e.message
  | settings e => e.message
  | nonPositiveVolume volume => "Structure has non-positive volume " ++ messageText volume ++ "."
  | cellCountMismatch positionCells forceCells =>
    s!"Position mesh has {positionCells} cells, but force mesh has {forceCells} cells."
  | noStepData part => s!"Structure {part} has no time step data. Was the step preprocessed?"
  | nothingToCommit objectName part =>
    s!"{objectName}: structure {part} has no time step data to commit"
  | forcesNotAllocated objectName =>
    s!"{objectName}: constraint force vectors have not been allocated"
  | velocityFixed objectName part =>
    s!"{objectName}: the rigid velocity of structure {part} can not be reset during a time step"
  | restoreDuringStep objectName =>
    s!"{objectName}: can not restore from a restart record during a time step"
  | external message => message

/-- A cause, and the attempts of a named method in which it arose, outermost first. -/
structure Failure (α : Type) where
  /-- The attempts, each with the name of the method. -/
  attempts : List (String × Attempt)
  cause : Cause α
deriving DecidableEq

/-- The message of a failure: the attempts and the cause, outermost first. -/
def Failure.message (failure : Failure Float) : String :=
  ": ".intercalate
    (failure.attempts.map (fun (name, attempt) => name ++ ": " ++ attempt.message)
      ++ [failure.cause.message])

/-- An operand that an operation is not defined for. -/
inductive Fault where
  | emptyBlock
  | ownedRangeOutOfBounds
  | ghostOutOfBounds (index : Nat)
  | ghostOwned (index : Nat)
  | vertexOutOfBounds (cell vertex vertices : Nat)
  | noPoints
  | rankOutOfRange
  | emptyCluster
  | wrongLength
  | noSuchCell (cell : Nat)
  /-- A number is too large for a word. -/
  | numberTooLarge
  /-- There are more items than fit into memory. -/
  | tooManyItems
deriving DecidableEq, Repr

/-- The words for a fault, if there are any. -/
def Fault.message? : Fault → Option String
  | emptyBlock => some "Block size must be positive."
  | ownedRangeOutOfBounds => some "Owned range out of bounds."
  | ghostOutOfBounds index => some s!"Ghost index {index} out of bounds."
  | ghostOwned index => some s!"Ghost index {index} is owned by this rank."
  | vertexOutOfBounds cell vertex vertices =>
    some (s!"Cell {cell} references vertex {vertex}, but the mesh only has {vertices} "
      ++ "vertices.")
  | noPoints => some "Number of points must be positive."
  | rankOutOfRange => some "Rank must be smaller than the number of ranks."
  | emptyCluster => some "A cluster needs at least one rank."
  | wrongLength | noSuchCell _ | numberTooLarge | tooManyItems => none

namespace Fault

/-- Refuses a number that is too large for a word. -/
def checkWord (number : Nat) : Except Fault Unit :=
  if number < wordCount then .ok () else .error .numberTooLarge

/-- Refuses more numbers than fit into memory. -/
def checkMemory (numbers : Nat) : Except Fault Unit :=
  if fitsInMemory numbers then .ok () else .error .tooManyItems

/-- Refuses to look up more numbers than fit into memory. -/
def checkTable (numbers : Nat) : Except Fault Unit :=
  if fitsInTable numbers then .ok () else .error .tooManyItems

theorem checkWord_eq_ok_iff {number : Nat} {result : Unit} :
    checkWord number = .ok result ↔ number < wordCount := by
  by_cases fits : number < wordCount <;> simp [checkWord, fits]

theorem checkMemory_eq_ok_iff {numbers : Nat} {result : Unit} :
    checkMemory numbers = .ok result ↔ fitsInMemory numbers := by
  cases fits : fitsInMemory numbers <;> simp [checkMemory, fits]

theorem checkTable_eq_ok_iff {numbers : Nat} {result : Unit} :
    checkTable numbers = .ok result ↔ fitsInTable numbers := by
  cases fits : fitsInTable numbers <;> simp [checkTable, fits]

end Fault

/-- Why an operation stopped. -/
inductive Stop (α : Type) where
  | failed (failure : Failure α)
  | fault (fault : Fault)
deriving DecidableEq

namespace Stop

variable {α : Type}

/-- A failure without an attempt around it. -/
def because (cause : Cause α) : Stop α :=
  failed ⟨[], cause⟩

/--
Why an access to an entry of a node stopped.  An entry whose number is too large for a word cannot
be asked for, so this is a fault and no failure.
-/
def access : FieldError → Stop α
  | .notOwned index =>
    if index < wordCount then because (.field (.notOwned index)) else fault .numberTooLarge
  | .notAvailable index =>
    if index < wordCount then because (.field (.notAvailable index)) else fault .numberTooLarge
  | error => because (.field error)

/-- Puts an attempt of a named method around a failure. -/
def within (objectName : String) (attempt : Attempt) : Stop α → Stop α
  | failed failure => failed { failure with attempts := (objectName, attempt) :: failure.attempts }
  | fault f => fault f

end Stop

end ImmersedBody
