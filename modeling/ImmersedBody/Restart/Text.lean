import ImmersedBody.Restart.Record

/-!
# Texts of restart records

A record is written as an indented JSON text.  Reading takes any JSON text of a record: members in
any order, members that the layout does not know, or the plain list of the values.
-/

namespace ImmersedBody

namespace RestartRecord

/-- The record of one structure's velocity. -/
def velocityText : RigidVelocity Float → JsonText :=
  RigidVelocity.recordText "translational_velocity" "rotational_velocity"

/-- Reads the record of one structure's velocity. -/
def velocityReader : Reader (RigidVelocity Float) :=
  Reader.record (RigidVelocity.recordKind "translational_velocity" "rotational_velocity")

/-- A record as a JSON value. -/
def text (record : RestartRecord Float) : JsonText :=
  .record [("object_name", .string record.objectName), ("version", .natural record.version),
    ("structures", .list (record.velocities.map velocityText))]

/-- The values of a record that have been found. -/
structure Found where
  objectName : Option String
  version : Option Nat
  velocities : Option (List (RigidVelocity Float))

/-- The layout of a record; the version has 32 bits. -/
def recordKind : RecordKind Found (RestartRecord Float) where
  fields :=
    [{ name := "object_name"
       isSet := fun found => found.objectName.isSome
       read := fun found => do pure { found with objectName := some (← Reader.string) } },
     { name := "version"
       isSet := fun found => found.version.isSome
       read := fun found => do pure { found with version := some (← Reader.natural 0x100000000) } },
     { name := "structures"
       isSet := fun found => found.velocities.isSome
       read := fun found => do
        pure { found with velocities := some (← Reader.list velocityReader) } }]
  start := ⟨none, none, none⟩
  finish := fun found => return ⟨← found.objectName, ← found.version, ← found.velocities⟩
  closed := false

/-- Reads a record of any version. -/
def reader : Reader (RestartRecord Float) :=
  Reader.record recordKind

/-- Reads a record of the current version from a source. -/
def read (source : List Symbol) : Except RestartError (RestartRecord Float) :=
  match reader.whole source with
  | .ok record =>
    match record.checkVersion with
    | .ok () => .ok record
    | .error e => .error e
  | .error .malformed => .error (.malformed "the text is not a restart record")
  | .error .interrupted => .error (.inputOutput "the source failed before the record ended")

/-- A place to write a text to. -/
structure Sink where
  /-- The number of bytes that fit, if it is limited. -/
  capacity : Option Nat
  /-- Whether the last step of writing fails. -/
  failsAtEnd : Bool

/-- Writes the text of a record. -/
def write (record : RestartRecord Float) (sink : Sink) : Except RestartError String :=
  let written := record.text.indented
  if sink.capacity.any (· < written.utf8ByteSize) then
    .error (.inputOutput "the record does not fit")
  else if sink.failsAtEnd then
    .error (.inputOutput "the record could not be completed")
  else
    .ok written

end RestartRecord

end ImmersedBody
