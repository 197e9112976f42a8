import ImmersedBody.Proofs.Rigid.Rotations
import ImmersedBody.Proofs.Blocks
import ImmersedBody.Coordinator.Step
import ImmersedBody.Proofs.Coordinator.Bodies
import ImmersedBody.Proofs.Field.Access

/-!
# Where the nodes of a structure are

On the only rank a structure is in a configuration if every node is at the image
of its reference place under one map of points.  Structures start in the reference
configuration, a displacement of their nodes composes it with the map, and closing
a field changes nothing.

What a step makes of the positions is said by `ends_predict_placed` and
`ends_update_placed`.
-/

namespace ImmersedBody

open ImmersedBody.Action NodalField

variable {shape : Shape}

/-! ## Reference places -/

/-- The place of a vertex in the reference configuration, in the dimension of the mesh. -/
def Mesh.place (mesh : Mesh shape ℝ) (node : Nat) (inside : node < mesh.vertices.size) : Vec3 ℝ :=
  shape.dim.flatten mesh.vertices[node]

/-- The coordinates of a vertex stand in its block. -/
theorem Mesh.getElem?_coordinates (mesh : Mesh shape ℝ) {node place : Nat}
    (inside : node < mesh.vertices.size) (below : place < shape.dim.size) :
    mesh.coordinates[node * shape.dim.size + place]? =
      some (shape.dim.coords mesh.vertices[node])[place] := by
  have sizes (vertex : Vec3 ℝ) :
      (shape.dim.coords vertex).toArray.toList.length = shape.dim.size := by
    simp
  rw [← Array.getElem?_toList, coordinates, Array.toList_flatMap,
    getElem?_flatMap_of_length sizes below]
  simp [inside, below]

/-! ## Fields that place the nodes of a mesh -/

/-- The layout of a field for all nodes of a mesh on one rank. -/
structure FieldLayout.Covers (layout : FieldLayout) (mesh : Mesh shape ℝ) : Prop where
  block : layout.blockSize = shape.dim.size
  owned : layout.owned = ⟨0, mesh.vertices.size * shape.dim.size⟩

theorem FieldLayout.Covers.owns {layout : FieldLayout} {mesh : Mesh shape ℝ}
    (covers : layout.Covers mesh) {node place : Nat} (inside : node < mesh.vertices.size)
    (below : place < shape.dim.size) : layout.Owns (node * shape.dim.size + place) := by
  have next : (node + 1) * shape.dim.size ≤ mesh.vertices.size * shape.dim.size :=
    Nat.mul_le_mul_right _ inside
  rw [Nat.add_mul, Nat.one_mul] at next
  rw [Owns, covers.owned]
  exact ⟨Nat.zero_le _, by show _ < mesh.vertices.size * shape.dim.size; omega⟩

/-- A field with a layout that has every node at the image of its reference place. -/
structure NodalField.Places (field : NodalField ℝ) (layout : FieldLayout) (mesh : Mesh shape ℝ)
    (image : Vec3 ℝ → Vec3 ℝ) : Prop where
  layout_eq : field.layout = layout
  vector_eq : ∀ node (inside : node < mesh.vertices.size),
    field.vector shape.dim node = .ok (image (mesh.place node inside))

namespace NodalField.Places

variable {layout : FieldLayout} {mesh : Mesh shape ℝ} {image : Vec3 ℝ → Vec3 ℝ}
  {field : NodalField ℝ}

/-- A field whose nodes hold the images places them, as far as the dimension goes. -/
theorem of_nodeHolds (covers : layout.Covers mesh) (same : field.layout = layout)
    (holds : ∀ node (inside : node < mesh.vertices.size),
      field.NodeHolds shape.dim node (image (mesh.place node inside))) :
    field.Places layout mesh fun x => shape.dim.flatten (image x) where
  layout_eq := same
  vector_eq := fun node inside =>
    vector_of_nodeHolds (same ▸ covers.block) (holds node inside)

/-- Closing a field does not move a node. -/
theorem synchronized (covers : layout.Covers mesh) (places : field.Places layout mesh image) :
    NodalField.Places { field with synchronized := true } layout mesh image where
  layout_eq := places.layout_eq
  vector_eq := by
    intro node inside
    have block : field.layout.blockSize = shape.dim.size := places.layout_eq ▸ covers.block
    rcases nodeHolds_of_vector block (places.vector_eq node inside) with ⟨holds, flat⟩
    rw [← flat]
    apply vector_of_nodeHolds
    · exact block
    · intro place below
      rw [get_synchronized (places.layout_eq ▸ covers.owns inside below)]
      exact holds place below

/-- The nodes can be displaced into a field of the same layout. -/
theorem exists_displace (covers : layout.Covers mesh) (places : field.Places layout mesh image)
    {target : NodalField ℝ} (same : target.layout = layout)
    (displacement : RigidDisplacement ℝ) :
    ∃ moved, displace shape.dim displacement field target = .ok () moved ∧
      moved.Places layout mesh fun x =>
        shape.dim.flatten (displacement.apply (image x)) := by
  have block : field.layout.blockSize = shape.dim.size := places.layout_eq ▸ covers.block
  have aligned : field.layout.owned =
      ⟨0 * shape.dim.size, mesh.vertices.size * shape.dim.size⟩ := by
    rw [places.layout_eq, covers.owned, Nat.zero_mul]
  rcases NodalField.exists_displace (same.trans places.layout_eq.symm) block aligned with
    ⟨moved, displaced, layout_eq, holds⟩
  refine ⟨moved, displaced, of_nodeHolds covers (layout_eq.trans same) ?_⟩
  intro node inside
  exact holds node (Nat.zero_le node) inside _ (places.vector_eq node inside)

end NodalField.Places

/-! ## Structures -/

namespace RigidStructure

/-- A structure that is set up on the only rank is in its reference configuration. -/
theorem places_of_setUp {description : StructureDescription shape ℝ} {seat : Seat}
    {body : RigidStructure shape ℝ} (serial : seat.size = 1)
    (created : setUp description seat = .ok body) :
    body.layout.Covers description.mesh ∧
      body.positions.Places body.layout description.mesh fun x => x := by
  have sound := (carries_of_setUp serial created).sound
  simp only [setUp, bind_eq_ok_iff, pure_eq_ok_iff] at created
  rcases created with ⟨layout, -, positions, placed, rfl⟩
  have covers : layout.Covers description.mesh := ⟨sound.block, sound.owned⟩
  have layout_eq : positions.layout = layout := sound.positions
  have made : NodalField.ofGlobal layout description.mesh.coordinates = .ok positions := by
    cases found : NodalField.ofGlobal layout description.mesh.coordinates with
    | error e =>
        rw [found] at placed
        cases placed
    | ok field =>
        rw [found] at placed
        cases placed
        rfl
  refine ⟨covers, layout_eq, ?_⟩
  intro node inside
  have holds : positions.NodeHolds shape.dim node description.mesh.vertices[node] := by
    intro place below
    rcases get_of_owns (layout_eq ▸ covers.owns inside below) with ⟨_, found⟩
    have stored := getElem?_of_get_ofGlobal made found
    rw [description.mesh.getElem?_coordinates inside below, Option.some.injEq] at stored
    rw [found, stored]
  exact vector_of_nodeHolds (layout_eq ▸ covers.block) holds

end RigidStructure

namespace Coordinator

variable {body : RigidStructure shape ℝ} {step : StepFields ℝ} {mesh : Mesh shape ℝ}
  {image : Vec3 ℝ → Vec3 ℝ} {seat : Seat} {part : Nat}

/--
The prediction displaces the current positions into those of the half time, and
stops if no mass properties can be computed from them.
-/
theorem ends_predict_placed (serial : seat.size = 1) (opened : body.step = some step)
    (covers : body.layout.Covers mesh) (places : body.positions.Places body.layout mesh image)
    (fits : step.halfPositions.layout = body.layout) {objectName : String} {order : Nat}
    {window : StepWindow ℝ} :
    (predict seat objectName order window part).Ends body
      (fun _ after => ∃ halfPositions halfMass,
        halfPositions.Places body.layout mesh (fun x => shape.dim.flatten
          ((RigidDisplacement.about body.currentMass.center body.velocity.current.translational
            body.velocity.current.rotational (Scalar.half * window.length)).apply (image x))) ∧
        after = { body with halfMass, step := some { step with halfPositions } })
      fun after => ∃ halfPositions,
        halfPositions.Places body.layout mesh (fun x => shape.dim.flatten
          ((RigidDisplacement.about body.currentMass.center body.velocity.current.translational
            body.velocity.current.rotational (Scalar.half * window.length)).apply (image x))) ∧
        (∀ mass, (body.massAt halfPositions order).alone ≠ .ok mass) ∧
        after = { body with step := some { step with halfPositions } } := by
  rcases places.exists_displace covers fits (RigidDisplacement.about body.currentMass.center
    body.velocity.current.translational body.velocity.current.rotational
    (Scalar.half * window.length)) with ⟨moved, displaced, half⟩
  rw [predict]
  simp only [ends_bind, ends_get, ends_stepFields, ends_part, opened, displaced, ends_collective,
    alone_close serial, ends_set, ends_attempt]
  split
  next halfMass computed =>
    exact ⟨_, halfMass, half.synchronized covers, rfl⟩
  next refused =>
    refine ⟨_, half.synchronized covers, fun mass computed => ?_, rfl⟩
    cases refused.symm.trans computed

/-- The update displaces the current positions into those of the new time. -/
theorem ends_update_placed (serial : seat.size = 1) (opened : body.step = some step)
    (covers : body.layout.Covers mesh) (places : body.positions.Places body.layout mesh image)
    (fits : step.newPositions.layout = body.layout) {window : StepWindow ℝ} :
    (update seat window part).Ends body
      (fun _ after => ∃ newPositions : NodalField ℝ,
        newPositions.Places body.layout mesh (fun x => shape.dim.flatten
          ((RigidDisplacement.about body.currentMass.center body.velocity.half.translational
            body.velocity.half.rotational window.length).apply (image x))) ∧
        after = { body with step := some { step with newPositions } })
      fun _ => False := by
  rcases places.exists_displace covers fits (RigidDisplacement.about body.currentMass.center
    body.velocity.half.translational body.velocity.half.rotational window.length) with
    ⟨moved, displaced, new⟩
  rw [update]
  simp only [ends_bind, ends_get, ends_stepFields, ends_part, opened, displaced, ends_collective,
    alone_close serial, ends_set]
  exact ⟨_, new.synchronized covers, rfl⟩

end Coordinator

end ImmersedBody
