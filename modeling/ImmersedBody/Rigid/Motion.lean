import ImmersedBody.Field.Nodal
import ImmersedBody.Rigid.Rotation
import ImmersedBody.Rigid.Velocity

/-!
# Rigid motions of nodal fields

A rigid displacement moves every node that the rank owns.  The velocity field of a rigid motion is
the translational velocity plus the angular velocity times the offset from the center of mass.

How the rigid velocity of a structure becomes a nodal velocity is a `NodalVelocity`, which a caller
may choose; `NodalVelocity.rigid` is the choice for a rigid body.
-/

namespace ImmersedBody

variable {α : Type} [Scalar α]

/-- The coordinate with a number in a vector. -/
def Vec3.coordinate (v : Vec3 α) : Nat → α
  | 0 => v.x
  | 1 => v.y
  | _ => v.z

/-- The vector at a node of a list of coordinates that is long enough for it. -/
def nodeVector (dim : Dim) (values : Array α) (node : Nat) : Vec3 α :=
  let entry (d : Nat) : α := values.getD (node * dim.size + d) 0
  match dim with
  | .two => ⟨entry 0, entry 1, 0⟩
  | .three => ⟨entry 0, entry 1, entry 2⟩

namespace NodalField

/--
The owned entries after a displacement of the nodes in `source`.  Entries behind the last whole
node keep their values.
-/
def displacedEntries (dim : Dim) (displacement : RigidDisplacement α) (source target : Array α) :
    Array α :=
  let moved := (List.range (source.size / dim.size)).toArray.map fun node =>
    displacement.apply (nodeVector dim source node)
  target.mapIdx fun i old =>
    match moved[i / dim.size]? with
    | some x => x.coordinate (i % dim.size)
    | none => old

/--
Moves every owned node of a source field into a field of the same layout.  If the last node is
incomplete, the others are written before the operation stops.
-/
def displace (dim : Dim) (displacement : RigidDisplacement α) (source : NodalField α) :
    EStateM (Stop α) (NodalField α) Unit := fun target =>
  if source.layout ≠ target.layout then .error (.because (.field .incompatibleLayouts)) target
  else
    let moved := target.write
      (displacedEntries dim displacement source.owned target.owned) (by simp [displacedEntries])
    if source.owned.size % dim.size = 0 then .ok () moved
    else .error (.fault .wrongLength) moved

end NodalField

/--
How the rigid velocity of a structure becomes the velocity of its nodes: given the rigid velocity,
the positions of the nodes, the center of mass and the time, the owned entries of the velocity are
written.
-/
abbrev NodalVelocity (α : Type) :=
  RigidVelocity α → NodalField α → Vec3 α → α → EStateM (Stop α) (NodalField α) Unit

namespace NodalVelocity

/-- Carries out a step for each node of a list. -/
def forNodes {σ ε : Type} (step : Nat → EStateM ε σ Unit) : List Nat → EStateM ε σ Unit
  | [] => pure ()
  | node :: nodes => do
    step node
    forNodes step nodes

/-- Puts a result of an operation on fields into work on a field. -/
def read {σ β : Type} (result : Except (Stop α) β) : EStateM (Stop α) σ β := fun s =>
  match result with
  | .ok value => .ok value s
  | .error stop => .error stop s

/-- Writes the vector of every owned node of a field from what other fields hold there. -/
def writeNodes (dim : Dim) (value : Nat → Except (Stop α) (Vec3 α)) :
    EStateM (Stop α) (NodalField α) Unit := fun velocity =>
  forNodes (fun node => do
    let u ← read (value node)
    NodalField.setVector dim node u) velocity.layout.nodes velocity

/-- The nodal velocity of a rigid body. -/
def rigid (dim : Dim) : NodalVelocity α := fun velocity positions center _ =>
  writeNodes dim fun node => do
    let x ← positions.vector dim node
    return velocity.atOffset (x - center)

end NodalVelocity

end ImmersedBody
