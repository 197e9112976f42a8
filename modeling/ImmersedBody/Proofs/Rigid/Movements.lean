import ImmersedBody.Proofs.Ranks.Possibilities
import ImmersedBody.Proofs.Rigid.FreeMotion

/-!
# Rigid movements of what a rank owns

A displacement moves the nodes that a rank owns by a rigid map of the plane or of space,
if the angular velocity has no component that turns the plane out of itself.  Here this
is said of the entries that the rank owns, whatever their layout is and however many
ranks there are.  The ghosts follow when the field is closed.
-/

namespace ImmersedBody

open NodalField

variable {dim : Dim}

/-- The vector of a node has no components that its dimension does not have. -/
theorem flatten_nodeVector (values : Array ℝ) (node : Nat) :
    dim.flatten (nodeVector dim values node) = nodeVector dim values node := by
  cases dim <;> rfl

namespace NodalField

/-- A displaced node is where the displacement takes it, as far as the dimension goes. -/
theorem nodeVector_displacedEntries {displacement : RigidDisplacement ℝ} {source target : Array ℝ}
    (same : target.size = source.size) {node : Nat} (inside : node < source.size / dim.size) :
    nodeVector dim (displacedEntries dim displacement source target) node =
      dim.flatten (displacement.apply (nodeVector dim source node)) := by
  apply nodeVector_eq
  intro place below
  have next : (node + 1) * dim.size ≤ source.size :=
    (Nat.mul_le_mul_right _ inside).trans (Nat.div_mul_le_self ..)
  have stored : node * dim.size + place < target.size := by
    rw [Nat.add_mul, Nat.one_mul] at next
    omega
  have remainder : (node * dim.size + place) % dim.size = place := by
    rw [Nat.add_comm, Nat.add_mul_mod_self_right, Nat.mod_eq_of_lt below]
  simp [displacedEntries, stored, entry_div node below, remainder, inside,
    coordinate_eq_getElem _ below]

/--
One field has every node that the rank owns where a velocity takes it over a time from its place
in another field, and this is a rigid motion of the plane or of space.
-/
structure MovedRigidly (dim : Dim) (velocity : RigidVelocity ℝ) (center : Vec3 ℝ) (time : ℝ)
    (before after : NodalField ℝ) : Prop where
  layout_eq : after.layout = before.layout
  /-- There are no entries but those of the nodes. -/
  whole : before.owned.size % dim.size = 0
  exists_map : ∃ map : RigidMap dim,
    (∀ x, map.apply (dim.flatten x) = dim.flatten (velocity.along center time (dim.flatten x))) ∧
      ∀ node < before.owned.size / dim.size,
        nodeVector dim after.owned node = map.apply (nodeVector dim before.owned node)

/-- A field that has been displaced without turning out of the plane is moved rigidly. -/
theorem movedRigidly_of_displace {velocity : RigidVelocity ℝ} {center : Vec3 ℝ} {time : ℝ}
    (turns : dim.TurnsWithin velocity.rotational) {source target moved : NodalField ℝ}
    (displaced : displace dim (.about center velocity.translational velocity.rotational time)
      source target = .ok () moved) : source.MovedRigidly dim velocity center time moved := by
  rw [displace] at displaced
  split_ifs at displaced with different whole
  cases displaced
  have same : source.layout = target.layout := not_not.mp different
  have size_eq : target.owned.size = source.owned.size := by
    rw [target.owned_size, source.owned_size, same]
  have applies := fun x => (RigidMap.identity dim).moved_apply
    (RigidDisplacement.about_isRigid center velocity.translational velocity.rotational time turns) x
  simp only [RigidMap.identity_apply] at applies
  refine ⟨same.symm, whole, _, applies, fun node inside => ?_⟩
  rw [← flatten_nodeVector source.owned, applies, flatten_nodeVector]
  exact nodeVector_displacedEntries size_eq inside

/-- Closing a field leaves alone what the rank owns. -/
theorem always_close (field : NodalField ℝ) (seat : Seat) :
    (field.close seat).Always
      (fun closed => closed.layout = field.layout ∧ closed.owned = field.owned) True := by
  rw [close]
  split
  · exact ⟨rfl, rfl⟩
  · rw [Collective.always_bind]
    exact Collective.always_of_forall (fun _ => ⟨rfl, rfl⟩) trivial

theorem MovedRigidly.congr {velocity : RigidVelocity ℝ} {center : Vec3 ℝ} {time : ℝ}
    {before after closed : NodalField ℝ}
    (moved : before.MovedRigidly dim velocity center time after)
    (same : closed.layout = after.layout ∧ closed.owned = after.owned) :
    before.MovedRigidly dim velocity center time closed where
  layout_eq := same.1.trans moved.layout_eq
  whole := moved.whole
  exists_map := by
    rw [same.2]
    exact moved.exists_map

end NodalField

end ImmersedBody
