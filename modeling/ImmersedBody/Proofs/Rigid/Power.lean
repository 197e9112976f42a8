import ImmersedBody.Proofs.Rigid.DistributedIntegrals
import ImmersedBody.Proofs.Element.Affine
import ImmersedBody.Proofs.Field.Shared

/-!
# The power of a force on a rigid motion

A generalized velocity is expanded into the velocities of the nodes, and a force
density at the nodes is integrated into a generalized force.  The two are adjoint:
the generalized force times the generalized velocity is the power of the force
density on the nodal velocities, integrated over the structure.  The main theorem
is `Mesh.power_balance`.

The nodal velocity is an affine function of the position, so that an element
interpolates it exactly, whatever its basis functions are.
-/

namespace ImmersedBody

variable {shape : Shape}

/-! ## Generalized forces and velocities -/

/-- The entries of two generalized vectors, multiplied and added up. -/
theorem Dim.sum_pack_mul (dim : Dim) (force torque : Vec3 ℝ) (dofs : Vector ℝ dim.rigidSize) :
    ∑ i : Fin dim.rigidSize, (dim.pack force torque)[i] * dofs[i] =
      force.dot (dim.linearPart dofs) + torque.dot (dim.angularPart dofs) := by
  cases dim with
  | two =>
      rw [Fin.sum_univ_three]
      simp [pack, linearPart, angularPart, Vec3.dot]
  | three =>
      rw [Fin.sum_univ_six]
      simp [pack, linearPart, angularPart, Vec3.dot]
      ring

namespace RigidVelocity

variable (velocity : RigidVelocity ℝ) (center x : Vec3 ℝ)

/-- The matrix that maps an offset to the velocity that the turning gives to it. -/
def spin : Mat3 ℝ :=
  let ω := velocity.rotational
  ⟨⟨0, -ω.z, ω.y⟩, ⟨ω.z, 0, -ω.x⟩, ⟨-ω.y, ω.x, 0⟩⟩

/-- The velocity of a point is an affine function of its position. -/
theorem atOffset_sub :
    velocity.atOffset (x - center) = velocity.spin.apply x + velocity.atOffset (0 - center) := by
  ext <;> simp [atOffset, spin, Vec3.cross, Vec3.dot] <;> ring

variable {dim : Dim} (dofs : Vector ℝ dim.rigidSize)

/-- The work of a force is that of its linear part and of its torque. -/
theorem dot_atOffset (force : Vec3 ℝ) :
    force.dot ((ofDofs dim dofs).atOffset (x - center)) =
      ∑ i : Fin dim.rigidSize, (dim.pack force ((x - center).cross force))[i] * dofs[i] := by
  rw [Dim.sum_pack_mul, Vec3.dot_cross_rotate, atOffset, Vec3.dot_add]
  rfl

end RigidVelocity

/-- A force in the plane does no work on the missing component of a velocity. -/
theorem Dim.dot_flatten (dim : Dim) {force : Vec3 ℝ} (flat : dim.flatten force = force)
    (v : Vec3 ℝ) : force.dot (dim.flatten v) = force.dot v := by
  cases dim with
  | two =>
      rw [flatten_two] at flat
      rw [flatten_two, ← flat]
      simp [Vec3.dot]
  | three =>
      rfl

/-! ## Power -/

/-- The power of a force density on the velocities of the nodes of an element. -/
noncomputable def Element.power (reference forces velocities : Element shape ℝ)
    (rule : QuadratureRule ℝ) : ℝ :=
  (rule.points.map fun q =>
    |reference.volumeFactor q.point| * q.weight *
      (forces.position q.point).dot (velocities.position q.point)).sum

/-- The power of a force density on a nodal velocity, over all cells of a mesh. -/
noncomputable def Mesh.power (mesh : Mesh shape ℝ) (forces velocities : NodalField ℝ)
    (rule : QuadratureRule ℝ) : Except (Stop ℝ) ℝ := do
  let onCells ← (List.finRange mesh.cells.size).mapM fun (number : Fin mesh.cells.size) => do
    let f ← forces.onCell shape.dim mesh.cells[number]
    let v ← velocities.onCell shape.dim mesh.cells[number]
    return Element.power (mesh.element number number.isLt) f v rule
  return onCells.sum

/-- What forces at points do to the generalized velocity of a body. -/
theorem PointForce.sum_net_mul {dim : Dim} (dofs : Vector ℝ dim.rigidSize) (center : Vec3 ℝ)
    (forces : List (PointForce ℝ)) :
    ∑ i : Fin dim.rigidSize, (dim.pack (net center forces).1 (net center forces).2)[i] * dofs[i] =
      (forces.map fun q =>
        q.force.dot ((RigidVelocity.ofDofs dim dofs).atOffset (q.position - center))).sum := by
  let work (total : Vec3 ℝ × Vec3 ℝ) : ℝ :=
    ∑ i : Fin dim.rigidSize, (dim.pack total.1 total.2)[i] * dofs[i]
  have start : (0 : ℝ) = work (0, 0) := by
    simp only [work, Dim.sum_pack_mul, Vec3.zero_dot, add_zero]
  rw [List.sum_eq_foldl, List.foldl_map, start]
  symm
  apply List.foldl_hom work
  rintro ⟨force, torque⟩ q
  simp only [work, RigidVelocity.dot_atOffset, Dim.sum_pack_mul, Vec3.add_dot]
  ring

namespace Element

variable (element : Element shape ℝ) (ξ : Vec3 ℝ)

/-- What an element interpolates from planar values is planar. -/
theorem position_flatten :
    position (element.map shape.dim.flatten : Element shape ℝ) ξ =
      shape.dim.flatten (element.position ξ) := by
  have linear : ∃ a : Mat3 ℝ, ∀ v, shape.dim.flatten v = a.apply v := by
    cases shape.dim with
    | two =>
        refine ⟨⟨⟨1, 0, 0⟩, ⟨0, 1, 0⟩, 0⟩, fun v => ?_⟩
        ext <;> simp [Dim.flatten_two, Vec3.dot]
    | three =>
        exact ⟨1, fun v => (Mat3.one_apply v).symm⟩
  rcases linear with ⟨a, flatten_eq⟩
  have map_eq : element.map shape.dim.flatten = element.map fun v => a.apply v + 0 := by
    apply Vector.map_congr_left
    intro v _
    rw [flatten_eq]
    ext <;> simp
  rw [map_eq, position_affine, flatten_eq]
  ext <;> simp

/-- An element interpolates the velocities of its nodes as that of the point between them. -/
theorem position_velocities (velocity : RigidVelocity ℝ) (center : Vec3 ℝ) :
    position (element.map fun x => shape.dim.flatten (velocity.atOffset (x - center)) :
        Element shape ℝ) ξ =
      shape.dim.flatten (velocity.atOffset (element.position ξ - center)) := by
  have map_eq : (element.map fun x => shape.dim.flatten (velocity.atOffset (x - center))) =
      (element.map fun x => velocity.spin.apply x + velocity.atOffset (0 - center)).map
        shape.dim.flatten := by
    rw [Vector.map_map]
    apply Vector.map_congr_left
    intro x _
    rw [Function.comp, velocity.atOffset_sub]
  rw [map_eq, position_flatten, position_affine, ← velocity.atOffset_sub]

/-- The power on an element whose nodes move with the body. -/
theorem power_of_velocities {f : Element shape ℝ} (planar : f.map shape.dim.flatten = f)
    (velocity : RigidVelocity ℝ) (center : Vec3 ℝ) (rule : QuadratureRule ℝ)
    (reference x : Element shape ℝ) :
    reference.power f (x.map fun x => shape.dim.flatten (velocity.atOffset (x - center))) rule =
      ((cellForces reference x f rule).map fun q =>
        q.force.dot (velocity.atOffset (q.position - center))).sum := by
  rw [power, cellForces, List.map_map]
  congr 1
  apply List.map_congr_left
  intro q _
  have flat : shape.dim.flatten (f.position q.point) = f.position q.point := by
    rw [← position_flatten, planar]
  simp only [Function.comp, position_velocities, shape.dim.dot_flatten flat, Vec3.scale_dot,
    Scalar.abs_real]
  ring

end Element

/-! ## The balance -/

/-- The vector of a node has no components beyond those of the dimension. -/
theorem NodalField.flatten_vector {field : NodalField ℝ} {dim : Dim} {node : Nat} {v : Vec3 ℝ}
    (read : field.vector dim node = .ok v) : dim.flatten v = v := by
  cases dim with
  | two =>
      simp only [vector, bind_eq_ok_iff, pure_eq_ok_iff] at read
      rcases read with ⟨x, -, y, -, rfl⟩
      rfl
  | three =>
      rfl

variable {mesh : Mesh shape ℝ} {positions forces : NodalField ℝ}

/-- The velocity of a body can be expanded into a field on the nodes of its mesh. -/
theorem exists_velocities {target : NodalField ℝ} {x : Nat → Vec3 ℝ}
    (layout : (Partition.ofMesh mesh .alone).layout shape.dim.size = .ok target.layout)
    (readPositions : ∀ node < mesh.vertices.size, positions.vector shape.dim node = .ok (x node))
    (velocity : RigidVelocity ℝ) (center : Vec3 ℝ) (time : ℝ) :
    ∃ velocities, NodalVelocity.rigid shape.dim velocity positions center time target =
        .ok () velocities ∧
      ∀ node < mesh.vertices.size, velocities.vector shape.dim node =
        .ok (shape.dim.flatten (velocity.atOffset (x node - center))) := by
  have laidOut := Partition.laidOut_of_layout layout
  have each : ∀ node ∈ target.layout.nodes, target.OwnsNode shape.dim node ∧
      (do let x ← positions.vector shape.dim node; return velocity.atOffset (x - center) :
        Except (Stop ℝ) (Vec3 ℝ)) = .ok (velocity.atOffset (x node - center)) := by
    intro node member
    have owned := (laidOut.mem_nodes shape.dim.size_pos).mp member
    refine ⟨fun _ below => (laidOut.owns_iff below).mpr owned, ?_⟩
    rw [readPositions node (Nat.lt_of_lt_of_le owned.2 (Seat.alone.stop_block_le _))]
    rfl
  rcases NodalVelocity.exists_writeNodes laidOut.blockSize_eq each with
    ⟨velocities, written, same, holds⟩
  refine ⟨velocities, written, fun node inside => ?_⟩
  apply NodalField.vector_of_nodeHolds (by rw [same, laidOut.blockSize_eq])
  exact holds node ((laidOut.mem_nodes shape.dim.size_pos).mpr
    (Seat.contains_block_of_single rfl inside))

/-- On the only rank the net force of a mesh is that of its cells. -/
theorem alone_generalizedForce {x f : Nat → Vec3 ℝ}
    (readPositions : ∀ node < mesh.vertices.size, positions.vector shape.dim node = .ok (x node))
    (readForces : ∀ node < mesh.vertices.size, forces.vector shape.dim node = .ok (f node))
    (center : Vec3 ℝ) (rule : QuadratureRule ℝ) :
    (generalizedForce mesh mesh (List.range mesh.cells.size) positions forces center rule).alone =
      let net := PointForce.net center
        ((List.finRange mesh.cells.size).flatMap fun (number : Fin mesh.cells.size) =>
          cellForces (mesh.element number number.isLt) (mesh.cells[number].map x)
            (mesh.cells[number].map f) rule)
      .ok (shape.dim.pack net.1 net.2) := by
  have onCells : (List.range mesh.cells.size).mapM
      (forcesOnCell mesh mesh positions forces rule) =
        .ok ((List.finRange mesh.cells.size).map fun (number : Fin mesh.cells.size) =>
          cellForces (mesh.element number number.isLt) (mesh.cells[number].map x)
            (mesh.cells[number].map f) rule) := by
    rw [← List.map_coe_finRange_eq_range, List.mapM_map]
    apply mapM_eq_ok_map
    intro number _
    rw [Function.comp, forcesOnCell, Array.getElem?_eq_getElem number.isLt, Mesh.element?,
      dif_pos number.isLt]
    simp only [NodalField.onCell_of_vectors readPositions number.isLt,
      NodalField.onCell_of_vectors readForces number.isLt]
    rfl
  simp only [generalizedForce, ne_eq, not_true_eq_false, if_false, Collective.alone_bind,
    Collective.alone_mk_pure, onCells, Collective.alone_sum, List.flatMap_def]

/-- The rule that is looked up for the cells of a mesh is the rule of the order, if it fits. -/
theorem alone_generalizedForce? {order : Nat}
    (fits : fitsInMemory (LineRule.pointsFor order) = true) (center : Vec3 ℝ) :
    (generalizedForce? mesh mesh (List.range mesh.cells.size) positions forces center order).alone =
      (generalizedForce mesh mesh (List.range mesh.cells.size) positions forces center
        (shape.rule order)).alone := by
  have chosen : shape.rule? order = .ok (shape.rule order : QuadratureRule ℝ) := by
    rw [Shape.rule?, Fault.checkMemory, if_pos fits]
    rfl
  rw [generalizedForce?_eq_generalizedForce chosen fun number => List.mem_range.mp]

/-- The power on a body whose nodes move with it is that of the forces at the quadrature points. -/
theorem Mesh.power_of_velocities {velocities : NodalField ℝ} {x f : Nat → Vec3 ℝ}
    {velocity : RigidVelocity ℝ} {center : Vec3 ℝ}
    (readForces : ∀ node < mesh.vertices.size, forces.vector shape.dim node = .ok (f node))
    (readVelocities : ∀ node < mesh.vertices.size, velocities.vector shape.dim node =
      .ok (shape.dim.flatten (velocity.atOffset (x node - center))))
    (rule : QuadratureRule ℝ) :
    mesh.power forces velocities rule =
      .ok (((List.finRange mesh.cells.size).flatMap fun (number : Fin mesh.cells.size) =>
        cellForces (mesh.element number number.isLt) (mesh.cells[number].map x)
          (mesh.cells[number].map f) rule).map fun q =>
            q.force.dot (velocity.atOffset (q.position - center))).sum := by
  have onCells : (List.finRange mesh.cells.size).mapM (fun (number : Fin mesh.cells.size) => do
      let f ← forces.onCell shape.dim mesh.cells[number]
      let v ← velocities.onCell shape.dim mesh.cells[number]
      return Element.power (mesh.element number number.isLt) f v rule) =
        .ok ((List.finRange mesh.cells.size).map fun (number : Fin mesh.cells.size) =>
          ((cellForces (mesh.element number number.isLt) (mesh.cells[number].map x)
            (mesh.cells[number].map f) rule).map fun q =>
              q.force.dot (velocity.atOffset (q.position - center))).sum) := by
    apply mapM_eq_ok_map
    intro number _
    have planar : Vector.map shape.dim.flatten (mesh.cells[number].map f) =
        mesh.cells[number].map f := by
      rw [Vector.map_map]
      apply Vector.ext
      intro i below
      simp only [Vector.getElem_map, Function.comp]
      exact NodalField.flatten_vector (readForces _ (mesh.inBounds number number.isLt i below))
    have powered := Element.power_of_velocities planar velocity center rule
      (mesh.element number number.isLt) (mesh.cells[number].map x)
    rw [Vector.map_map] at powered
    rw [← powered]
    simp only [Fin.getElem_fin, NodalField.onCell_of_vectors readForces number.isLt,
      NodalField.onCell_of_vectors readVelocities number.isLt]
    rfl
  rw [Mesh.power, onCells, List.map_flatMap, List.flatMap_def, List.sum_flatten, List.map_map]
  rfl

/--
The nodes of a body move with a generalized velocity, and a force density acts on
them.  The generalized force times the generalized velocity is the power of the
force density on the velocities of the nodes: the sum over all cells and quadrature
points of the volume around the point times the product of what the element
interpolates there from the force density and from the velocities.
-/
theorem Mesh.power_balance {mesh : Mesh shape ℝ} {positions forces target : NodalField ℝ}
    (readPositions : ∀ node < mesh.vertices.size,
      ∃ x, positions.vector shape.dim node = .ok x)
    (readForces : ∀ node < mesh.vertices.size, ∃ f, forces.vector shape.dim node = .ok f)
    (layout : (Partition.ofMesh mesh .alone).layout shape.dim.size = .ok target.layout)
    (dofs : Vector ℝ shape.dim.rigidSize) (center : Vec3 ℝ) (time : ℝ) (order : Nat) :
    ∃ velocities total,
      NodalVelocity.rigid shape.dim (.ofDofs shape.dim dofs) positions center time target =
        .ok () velocities ∧
      (generalizedForce mesh mesh (List.range mesh.cells.size) positions forces center
        (shape.rule order)).alone = .ok total ∧
      (fitsInMemory (LineRule.pointsFor order) = true →
        (generalizedForce? mesh mesh (List.range mesh.cells.size) positions forces center
          order).alone = .ok total) ∧
      mesh.power forces velocities (shape.rule order) =
        .ok (∑ i : Fin shape.dim.rigidSize, total[i] * dofs[i]) := by
  have extend {property : Vec3 ℝ → Prop} (node : Nat)
      (found : node < mesh.vertices.size → ∃ v, property v) :
      ∃ v, node < mesh.vertices.size → property v := by
    by_cases inside : node < mesh.vertices.size
    · exact (found inside).imp fun _ holds _ => holds
    · exact ⟨0, fun below => absurd below inside⟩
  choose x readX using fun node => extend node (readPositions node)
  choose f readF using fun node => extend node (readForces node)
  let velocity := RigidVelocity.ofDofs shape.dim dofs
  let v (node : Nat) : Vec3 ℝ := shape.dim.flatten (velocity.atOffset (x node - center))
  rcases exists_velocities layout readX velocity center time with ⟨velocities, expanded, readV⟩
  have integrated := alone_generalizedForce readX readF center (shape.rule order)
  refine ⟨velocities, _, expanded, integrated, ?_, ?_⟩
  · exact fun fits => (alone_generalizedForce? fits center).trans integrated
  · rw [Mesh.power_of_velocities readF readV, PointForce.sum_net_mul]

open MassProperties in
/-- A force on the square of two triangles, which moves along an axis and turns. -/
theorem Mesh.power_balance_square :
    let positions := fourNodes corner
    let forces := fourNodes fun node => ⟨(node : ℝ), 1, 0⟩
    let dofs : Vector ℝ 3 := #v[1, 0, 2]
    ∃ velocities total,
      NodalVelocity.rigid .two (.ofDofs .two dofs) positions ⟨1, 1, 0⟩ 0 positions =
        .ok () velocities ∧
      (generalizedForce? square square [0, 1] positions forces ⟨1, 1, 0⟩ 3).alone = .ok total ∧
      square.power forces velocities (Shape.triangle.rule 3) =
        .ok (∑ i : Fin 3, total[i] * dofs[i]) := by
  intro positions forces dofs
  have read (vectors : Nat → Vec3 ℝ) : ∀ node < square.vertices.size,
      ∃ v, (fourNodes vectors).vector .two node = .ok v :=
    fun node inside => ⟨_, vector_fourNodes vectors node inside⟩
  have layout : (Partition.ofMesh square .alone).layout 2 = .ok positions.layout := rfl
  rcases Mesh.power_balance (read corner) (read fun node => ⟨(node : ℝ), 1, 0⟩) layout dofs
    ⟨1, 1, 0⟩ 0 3 with ⟨velocities, total, expanded, -, checked, balanced⟩
  exact ⟨velocities, total, expanded, checked rfl, balanced⟩

end ImmersedBody
