import ImmersedBody.Json.Record
import ImmersedBody.Json.Text
import ImmersedBody.Space.Dim

/-!
# Rigid velocities

The velocity of a rigid body is that of its center of mass and that of its turning about it.  In
the generalized form that a rigid body solver uses, its components form one vector; in the plane
this vector has room for the planar components only.
-/

namespace ImmersedBody

/-- The velocity of a rigid body. -/
@[ext]
structure RigidVelocity (α : Type) where
  /-- The velocity of the center of mass. -/
  translational : Vec3 α
  rotational : Vec3 α
deriving DecidableEq, BEq

namespace RigidVelocity

variable {α : Type}

instance [Zero α] : Zero (RigidVelocity α) := ⟨⟨0, 0⟩⟩

/-- The generalized form of a velocity. -/
def toDofs (dim : Dim) (velocity : RigidVelocity α) : Vector α dim.rigidSize :=
  dim.pack velocity.translational velocity.rotational

/-- The velocity with the given generalized form. -/
def ofDofs [Zero α] (dim : Dim) (dofs : Vector α dim.rigidSize) : RigidVelocity α :=
  ⟨dim.linearPart dofs, dim.angularPart dofs⟩

@[simp]
theorem toDofs_ofDofs [Zero α] (dim : Dim) (dofs : Vector α dim.rigidSize) :
    (ofDofs dim dofs).toDofs dim = dofs := by
  cases dim
  · ext i h
    match i, h with
    | 0, _ | 1, _ | 2, _ => rfl
  · ext i h
    match i, h with
    | 0, _ | 1, _ | 2, _ | 3, _ | 4, _ | 5, _ => rfl

/-- The velocity of a point at an offset from the center of mass. -/
def atOffset [Add α] [Sub α] [Mul α] (velocity : RigidVelocity α) (offset : Vec3 α) : Vec3 α :=
  velocity.translational + velocity.rotational.cross offset

/-- The mean of two velocities. -/
def average [Scalar α] (a b : RigidVelocity α) : RigidVelocity α :=
  ⟨a.translational.average b.translational, a.rotational.average b.rotational⟩

/-- A vector as a list of numbers. -/
def vectorText (v : Vec3 Float) : JsonText :=
  .list (v.toList.map .number)

/-- Reads a vector as a list of three numbers. -/
def readVector : Reader (Vec3 Float) := do
  match ← Reader.array 3 Reader.float with
  | [x, y, z] => pure ⟨x, y, z⟩
  | _ => Reader.refuse

/-- A velocity as a record with the given names for its two parts. -/
def recordText (translational rotational : String) (velocity : RigidVelocity Float) : JsonText :=
  .record [(translational, vectorText velocity.translational),
    (rotational, vectorText velocity.rotational)]

/-- The kind of record that holds a velocity under the given names. -/
def recordKind (translational rotational : String) :
    RecordKind (Option (Vec3 Float) × Option (Vec3 Float)) (RigidVelocity Float) where
  fields :=
    [{ name := translational
       isSet := fun found => found.1.isSome
       read := fun found => do pure (some (← readVector), found.2) },
     { name := rotational
       isSet := fun found => found.2.isSome
       read := fun found => do pure (found.1, some (← readVector)) }]
  start := (none, none)
  finish := fun found => return ⟨← found.1, ← found.2⟩
  closed := false

/-- A velocity as a record. -/
def text (velocity : RigidVelocity Float) : JsonText :=
  recordText "translational" "rotational" velocity

/-- Reads a velocity. -/
def reader : Reader (RigidVelocity Float) :=
  Reader.record (recordKind "translational" "rotational")

end RigidVelocity


end ImmersedBody
