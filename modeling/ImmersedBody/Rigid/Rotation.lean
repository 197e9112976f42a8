import ImmersedBody.Space.Dim

/-!
# Finite rotations

A body that turns with a constant angular velocity over a time is rotated about the axis of the
angular velocity, by its length times the time.  A point of the body moves with the rotation about
the center of mass and with the shift of the whole body.
-/

namespace ImmersedBody

variable {α : Type} [Scalar α]

/--
The rotation by a constant angular velocity over a time.  An angular velocity that cannot be told
from zero does not turn anything.
-/
def rotation (ω : Vec3 α) (time : α) : Mat3 α :=
  let speed := ω.norm
  if Scalar.le speed Scalar.epsilon then 1
  else
    let e := ω.divide speed
    let angle := speed * time
    let s := Scalar.sin angle
    let c := Scalar.cos angle
    let t := 1 - c
    ⟨⟨c + t * e.x * e.x, t * e.x * e.y - s * e.z, t * e.x * e.z + s * e.y⟩,
      ⟨t * e.x * e.y + s * e.z, c + t * e.y * e.y, t * e.y * e.z - s * e.x⟩,
      ⟨t * e.x * e.z - s * e.y, t * e.y * e.z + s * e.x, c + t * e.z * e.z⟩⟩

/-- A rigid motion of a body from one configuration to another. -/
structure RigidDisplacement (α : Type) where
  /-- The center of mass before the motion. -/
  oldCenter : Vec3 α
  rotation : Mat3 α
  /-- The center of mass that the rotated offset is added to. -/
  newCenter : Vec3 α
  /-- The shift that follows the rotation. -/
  shift : Vec3 α

namespace RigidDisplacement

/-- The new place of a point of the body. -/
def apply (displacement : RigidDisplacement α) (x : Vec3 α) : Vec3 α :=
  displacement.newCenter + displacement.rotation.apply (x - displacement.oldCenter)
    + displacement.shift

/-- The motion about a center with a constant velocity over a time. -/
def about (center : Vec3 α) (translational rotational : Vec3 α) (time : α) :
    RigidDisplacement α where
  oldCenter := center
  rotation := ImmersedBody.rotation rotational time
  newCenter := center
  shift := translational.scale time

end RigidDisplacement

end ImmersedBody
