import ImmersedBody.Field.Exchange
import ImmersedBody.Proofs.Outcomes
import ImmersedBody.Proofs.Ranks.Alone
import ImmersedBody.Rigid.Force
import ImmersedBody.Rigid.Structure

/-!
# Sound structures on the only rank

On the only rank a structure owns all its nodes.  `RigidStructure.Sound` says
that its fields are laid out accordingly, which is what the operations on fields
rely on: every node can be read, so that forces can always be integrated.
-/

namespace ImmersedBody

variable {α : Type} {shape : Shape}

/-! ## Fields -/

namespace NodalField

/-- Closing a field on the only rank refreshes nothing. -/
theorem alone_close [Zero α] {seat : Seat} (serial : seat.size = 1) (field : NodalField α) :
    (field.close seat).alone = .ok { field with synchronized := true } := by
  rw [close, if_pos serial]
  rfl

/-- A displacement does not touch the layout, also if it stops. -/
theorem layout_of_displace [Scalar α] {dim : Dim} {displacement : RigidDisplacement α}
    {source target moved : NodalField α}
    (displaced : displace dim displacement source target = .ok () moved ∨
      ∃ stop, displace dim displacement source target = .error stop moved) :
    moved.layout = target.layout := by
  by_cases same : source.layout ≠ target.layout
  · simp only [displace, if_pos same] at displaced
    rcases displaced with ⟨⟨⟩⟩ | ⟨stop, ⟨⟩⟩
    rfl
  · by_cases whole : source.owned.size % dim.size = 0
    · simp only [displace, if_neg same, if_pos whole] at displaced
      rcases displaced with ⟨⟨⟩⟩ | ⟨stop, ⟨⟩⟩
      rfl
    · simp only [displace, if_neg same, if_neg whole] at displaced
      rcases displaced with ⟨⟨⟩⟩ | ⟨stop, ⟨⟩⟩
      rfl

theorem exists_get_of_owns {field : NodalField α} {i : Nat} (owns : field.layout.Owns i) :
    ∃ value, field.get i = .ok value := by
  rw [get, dif_pos owns]
  exact ⟨_, rfl⟩

/-- The nodes of a field that the rank owns as a whole can be read. -/
theorem exists_vector [Zero α] {field : NodalField α} {dim : Dim} {nodes number : Nat}
    (block : field.layout.blockSize = dim.size)
    (owned : field.layout.owned = ⟨0, nodes * dim.size⟩) (inside : number < nodes) :
    ∃ v, field.vector dim number = .ok v := by
  have readable : ∀ place < dim.size, ∃ value, field.nodeEntry number place = .ok value := by
    intro place below
    have owns : field.layout.Owns (number * field.layout.blockSize + place) := by
      rw [FieldLayout.Owns, owned, block]
      have next : (number + 1) * dim.size ≤ nodes * dim.size := Nat.mul_le_mul_right _ inside
      rw [Nat.add_mul, Nat.one_mul] at next
      refine ⟨Nat.zero_le _, ?_⟩
      show number * dim.size + place < nodes * dim.size
      omega
    rcases exists_get_of_owns owns with ⟨value, read⟩
    exact ⟨value, by rw [nodeEntry, read]; rfl⟩
  cases dim with
  | two =>
      rcases readable 0 (by decide) with ⟨x, readX⟩
      rcases readable 1 (by decide) with ⟨y, readY⟩
      exact ⟨_, by rw [vector, readX, readY]; rfl⟩
  | three =>
      rcases readable 0 (by decide) with ⟨x, readX⟩
      rcases readable 1 (by decide) with ⟨y, readY⟩
      rcases readable 2 (by decide) with ⟨z, readZ⟩
      exact ⟨_, by rw [vector, readX, readY, readZ]; rfl⟩

/-- What a field gives to a cell whose nodes can be read. -/
theorem onCell_of_vectors [Scalar α] {mesh : Mesh shape α} {field : NodalField α} {v : Nat → Vec3 α}
    (read : ∀ node < mesh.vertices.size, field.vector shape.dim node = .ok (v node))
    {number : Nat} (inside : number < mesh.cells.size) :
    field.onCell shape.dim mesh.cells[number] = .ok (mesh.cells[number].map v) :=
  vector_mapM_eq_ok_map fun i below => read _ (mesh.inBounds number inside i below)

end NodalField

/-! ## Layouts -/

theorem FieldLayout.of_make {globalLength blockSize : Nat} {owned : IndexRange}
    {ghosts : Array Nat} {layout : FieldLayout}
    (made : make globalLength owned ghosts blockSize = .ok layout) :
    layout.owned = owned ∧ layout.blockSize = blockSize := by
  rw [make] at made
  split_ifs at made
  split at made
  · cases made
  · cases made
    exact ⟨rfl, rfl⟩

/-- The only rank owns all items. -/
theorem Seat.block_of_serial {seat : Seat} (serial : seat.size = 1) (n : Nat) :
    seat.block n = ⟨0, n⟩ := by
  have first : seat.rank = 0 := by
    have below := seat.rank_lt
    omega
  simp [Seat.block, serial, first]

theorem Partition.lt_of_mem_cellsIn {mesh : Mesh shape α} {range : IndexRange} {number : Nat}
    (member : number ∈ cellsIn mesh range) : number < mesh.cells.size :=
  List.mem_range.mp (List.mem_filter.mp member).1

/-! ## Structures -/

/-- Forces on cells whose nodes the rank owns can be integrated. -/
theorem exists_alone_generalizedForce [Scalar α] {mesh : Mesh shape α} {cells : List Nat}
    {positions forces : NodalField α} {layout : FieldLayout}
    (block : layout.blockSize = shape.dim.size)
    (owned : layout.owned = ⟨0, mesh.vertices.size * shape.dim.size⟩)
    (inside : ∀ number ∈ cells, number < mesh.cells.size)
    (positionsFit : positions.layout = layout) (forcesFit : forces.layout = layout)
    (center : Vec3 α) (rule : QuadratureRule α) :
    ∃ total, (generalizedForce mesh mesh cells positions forces center rule).alone = .ok total := by
  have readable : ∀ field : NodalField α, field.layout = layout → ∀ number,
      (below : number < mesh.cells.size) →
        ∃ element, field.onCell shape.dim mesh.cells[number] = .ok element := by
    intro field fits number below
    apply exists_vector_mapM
    intro i bound
    apply NodalField.exists_vector
    · rw [fits, block]
    · rw [fits, owned]
    · exact mesh.inBounds number below i bound
  have onCells : ∃ parts,
      cells.mapM (forcesOnCell mesh mesh positions forces rule) = .ok parts := by
    apply exists_mapM
    intro number member
    have below := inside number member
    rcases readable positions positionsFit number below with ⟨x, readX⟩
    rcases readable forces forcesFit number below with ⟨f, readF⟩
    refine ⟨cellForces (mesh.element number below) x f rule, ?_⟩
    rw [forcesOnCell, Array.getElem?_eq_getElem below, Mesh.element?, dif_pos below]
    simp only [readX, readF]
    rfl
  rcases onCells with ⟨parts, integrated⟩
  simp only [generalizedForce, ne_eq, not_true_eq_false, if_false, Collective.alone_bind,
    Collective.alone_mk_pure, integrated]
  exact ⟨_, rfl⟩

/-- The fields of a step that are laid out like the structure. -/
structure StepFields.Fits (step : StepFields α) (layout : FieldLayout) : Prop where
  halfPositions : step.halfPositions.layout = layout
  newPositions : step.newPositions.layout = layout
  halfForce : step.halfForce.layout = layout

namespace RigidStructure

/-- The structure owns all its nodes, and positions and forces are laid out accordingly. -/
structure Sound (body : RigidStructure shape α) : Prop where
  block : body.layout.blockSize = shape.dim.size
  owned : body.layout.owned = ⟨0, body.mesh.vertices.size * shape.dim.size⟩
  cells : ∀ number ∈ body.partition.cells, number < body.mesh.cells.size
  positions : body.positions.layout = body.layout
  constraintForce : body.constraintForce.layout = body.layout
  step : ∀ step, body.step = some step → step.Fits body.layout

/-- The constraint force at the half time, during a step. -/
def halfForce? (body : RigidStructure shape α) : Option (NodalField α) :=
  body.step.map (·.halfForce)

/-- A sound structure with a given constraint force at the half time, or without step. -/
structure Carries (force : Option (NodalField α)) (body : RigidStructure shape α) : Prop where
  sound : body.Sound
  force_eq : body.halfForce? = force

namespace Carries

variable {force : Option (NodalField α)} {body after : RigidStructure shape α}

/-- Velocities and mass properties do not matter. -/
theorem congr (carries : body.Carries force) (mesh : after.mesh = body.mesh)
    (partition : after.partition = body.partition) (layout : after.layout = body.layout)
    (positions : after.positions = body.positions)
    (constraintForce : after.constraintForce = body.constraintForce)
    (step : after.step = body.step) : after.Carries force where
  sound := {
    block := by rw [layout, carries.sound.block]
    owned := by rw [layout, mesh, carries.sound.owned]
    cells := by rw [partition, mesh]; exact carries.sound.cells
    positions := by rw [positions, layout, carries.sound.positions]
    constraintForce := by rw [constraintForce, layout, carries.sound.constraintForce]
    step := by rw [step, layout]; exact carries.sound.step }
  force_eq := by
    rw [halfForce?, step]
    exact carries.force_eq

/-- Other fields of the step, laid out like the structure. -/
theorem withStep (carries : body.Carries force) (step : StepFields α)
    (fits : step.Fits body.layout) {next : Option (NodalField α)}
    (next_eq : next = some step.halfForce) :
    { body with step := some step }.Carries next where
  sound := {
    block := carries.sound.block
    owned := carries.sound.owned
    cells := carries.sound.cells
    positions := carries.sound.positions
    constraintForce := carries.sound.constraintForce
    step := by
      intro current found
      cases found
      exact fits }
  force_eq := next_eq.symm

theorem fits (carries : body.Carries force) {step : StepFields α} (found : body.step = some step) :
    step.Fits body.layout :=
  carries.sound.step step found

theorem eq_some (carries : body.Carries force) {step : StepFields α}
    (found : body.step = some step) : force = some step.halfForce := by
  rw [← carries.force_eq, halfForce?, found]
  rfl

/-- The velocity of the flow does not matter. -/
theorem withFlowVelocity (carries : body.Carries force) {step : StepFields α}
    (found : body.step = some step) (level : TimeLevel) (velocity : NodalField α) :
    (body.withFlowVelocity step level velocity).Carries force := by
  have fits := carries.fits found
  have force_eq := carries.eq_some found
  cases level with
  | current =>
      exact carries.congr rfl rfl rfl rfl rfl rfl
  | half =>
      exact carries.withStep { step with halfVelocity := velocity }
        ⟨fits.halfPositions, fits.newPositions, fits.halfForce⟩ force_eq
  | new =>
      exact carries.withStep { step with newVelocity := velocity }
        ⟨fits.halfPositions, fits.newPositions, fits.halfForce⟩ force_eq

end Carries

/-- A structure is set up with what it is made of, and outside a step. -/
theorem fields_of_setUp [Scalar α] {description : StructureDescription shape α} {seat : Seat}
    {body : RigidStructure shape α} (created : setUp description seat = .ok body) :
    body.mesh = description.mesh ∧ body.partition = .ofMesh description.mesh seat ∧
      body.motion = description.motion ∧ body.velocity = .uniform description.initialVelocity ∧
        body.step = none := by
  simp only [setUp, bind_eq_ok_iff, pure_eq_ok_iff] at created
  rcases created with ⟨layout, -, positions, -, rfl⟩
  exact ⟨rfl, rfl, rfl, rfl, rfl⟩

/-- A structure that is set up on the only rank is sound. -/
theorem carries_of_setUp [Scalar α] {description : StructureDescription shape α} {seat : Seat}
    {body : RigidStructure shape α} (serial : seat.size = 1)
    (created : setUp description seat = .ok body) : body.Carries none := by
  simp only [setUp, bind_eq_ok_iff, pure_eq_ok_iff] at created
  rcases created with ⟨layout, laidOut, positions, placed, rfl⟩
  have layout_facts : layout.owned = ⟨0, description.mesh.vertices.size * shape.dim.size⟩ ∧
      layout.blockSize = shape.dim.size := by
    cases made : (Partition.ofMesh description.mesh seat).layout shape.dim.size with
    | error fault =>
        rw [made] at laidOut
        cases laidOut
    | ok found =>
        rw [made] at laidOut
        cases laidOut
        have facts := FieldLayout.of_make made
        simp only [Partition.ofMesh, Seat.block_of_serial serial, Nat.zero_mul] at facts
        exact facts
  have positions_layout : positions.layout = layout := by
    rw [NodalField.ofGlobal] at placed
    split_ifs at placed with fits
    · cases placed
      rfl
    · cases placed
  exact {
    sound := {
      block := layout_facts.2
      owned := layout_facts.1
      cells := fun number member => Partition.lt_of_mem_cellsIn member
      positions := positions_layout
      constraintForce := rfl
      step := by rintro step ⟨⟩ }
    force_eq := rfl }

end RigidStructure

end ImmersedBody
