import ImmersedBody.Rigid.Velocity

/-!
# Restart records

A restart record holds the rigid velocities of all structures of a method, in their order.  It is
taken back only by a method of the same name with as many structures, and only if the layout of the
record has the version that is written today.
-/

namespace ImmersedBody

/-- The velocities of all structures of a method. -/
structure RestartRecord (α : Type) where
  objectName : String
  version : Nat
  velocities : List (RigidVelocity α)
deriving DecidableEq

/-- Why a record cannot be used. -/
inductive RestartError where
  | versionMismatch (found expected : Nat)
  | objectNameMismatch (found expected : String)
  | structureCountMismatch (found expected : Nat)
  | malformed (details : String)
  /-- The text could not be read or written to its end. -/
  | inputOutput (details : String)
deriving DecidableEq

/-- The name of a restart error, by which callers tell errors apart. -/
def RestartError.name : RestartError → String
  | versionMismatch _ _ => "VersionMismatch"
  | objectNameMismatch _ _ => "ObjectNameMismatch"
  | structureCountMismatch _ _ => "StructureCountMismatch"
  | malformed _ => "Malformed"
  | inputOutput _ => "Io"

/-- The message of a restart error. -/
def RestartError.message : RestartError → String
  | versionMismatch found expected =>
    s!"Restart file version {found} is different from class version {expected}."
  | objectNameMismatch found expected =>
    "Restart record belongs to `" ++ found ++ "`, expected `" ++ expected ++ "`."
  | structureCountMismatch found expected =>
    s!"Restart record contains {found} structures, but {expected} are registered."
  | malformed details => "Malformed restart record: " ++ details
  | inputOutput details => "I/O error while accessing restart record: " ++ details

namespace RestartRecord

variable {α : Type}

/-- The version of the layout that is written today. -/
def currentVersion : Nat := 1

/-- A record of the current version. -/
def current (objectName : String) (velocities : List (RigidVelocity α)) : RestartRecord α :=
  ⟨objectName, currentVersion, velocities⟩

/-- Refuses a record of another version. -/
def checkVersion (record : RestartRecord α) : Except RestartError Unit :=
  if record.version = currentVersion then .ok ()
  else .error (.versionMismatch record.version currentVersion)

/-- Refuses a record that does not belong to a method with this name and number of structures. -/
def checkCompatible (record : RestartRecord α) (objectName : String) (structures : Nat) :
    Except RestartError Unit := do
  record.checkVersion
  if record.objectName ≠ objectName then
    .error (.objectNameMismatch record.objectName objectName)
  else if record.velocities.length ≠ structures then
    .error (.structureCountMismatch record.velocities.length structures)
  else
    .ok ()

end RestartRecord

end ImmersedBody
