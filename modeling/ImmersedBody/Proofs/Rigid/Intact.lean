import ImmersedBody.Proofs.Rigid.Shared
import ImmersedBody.Proofs.Rigid.Soundness

/-!
# Intact structures

What a structure on the only rank has to be like so that no operation on it can go
wrong by itself: every field is laid out like the structure, which owns all its nodes,
and the positions are synchronized.  During a step the same holds of the fields of the
step, and outside of a step there are none.

All nodes of such a structure can be read and written, so its mass properties fail for
one reason only, and its forces can always be integrated and spread.
-/

namespace ImmersedBody

variable {α : Type} {shape : Shape}

/-! ## Fields on all nodes -/

/-- At so many nodes the field holds what a function makes of the positions there. -/
def NodalField.Samples [Zero α] (field : NodalField α) (dim : Dim) (f : Vec3 α → Vec3 α)
    (positions : NodalField α) (nodes : Nat) : Prop :=
  ∀ node < nodes, ∃ x, positions.vector dim node = .ok x ∧ field.NodeHolds dim node (f x)

/-- The rank owns the entries of so many nodes, and no others. -/
structure FieldLayout.Spans (layout : FieldLayout) (dim : Dim) (nodes : Nat) : Prop where
  block : layout.blockSize = dim.size
  owned : layout.owned = ⟨0, nodes * dim.size⟩

namespace FieldLayout.Spans

variable {layout : FieldLayout} {dim : Dim} {nodes node : Nat} {field source : NodalField α}

theorem mem_nodes_iff (spans : layout.Spans dim nodes) : node ∈ layout.nodes ↔ node < nodes := by
  rw [FieldLayout.nodes, IndexRange.blocks, spans.owned, spans.block,
    Nat.mul_div_cancel _ dim.size_pos, Nat.zero_div, List.mem_range'_1, Nat.sub_zero, Nat.zero_add,
    and_iff_right (Nat.zero_le node)]

theorem ownsNode (spans : layout.Spans dim nodes) (fits : field.layout = layout)
    (inside : node < nodes) : field.OwnsNode dim node := by
  subst fits
  intro place below
  have next : (node + 1) * dim.size ≤ nodes * dim.size := Nat.mul_le_mul_right _ inside
  rw [Nat.add_mul, Nat.one_mul] at next
  rw [FieldLayout.Owns, spans.owned]
  refine ⟨Nat.zero_le _, ?_⟩
  show node * dim.size + place < nodes * dim.size
  omega

theorem exists_vector [Zero α] (spans : layout.Spans dim nodes) (fits : field.layout = layout)
    (inside : node < nodes) : ∃ v, field.vector dim node = .ok v := by
  subst fits
  exact NodalField.exists_vector spans.block spans.owned inside

variable [Scalar α]

/-- What a function makes of positions can be written into a field. -/
theorem exists_writeMapped (spans : layout.Spans dim nodes) (sourceFits : source.layout = layout)
    (fits : field.layout = layout) (f : Vec3 α → Vec3 α) :
    ∃ after, NodalVelocity.writeNodes dim
        (fun node => do
          let x ← source.vector dim node
          return f x) field = .ok () after ∧ after.layout = layout ∧
      after.Samples dim f source nodes := by
  let found (node : Nat) : Vec3 α := f ((source.vector dim node).toOption.getD 0)
  have each : ∀ node ∈ field.layout.nodes, field.OwnsNode dim node ∧
      (do let x ← source.vector dim node
          return f x : Except (Stop α) (Vec3 α)) = .ok (found node) := by
    intro node member
    rw [fits] at member
    have inside := spans.mem_nodes_iff.mp member
    rcases spans.exists_vector sourceFits inside with ⟨x, read⟩
    refine ⟨spans.ownsNode fits inside, ?_⟩
    simp only [found, read]
    rfl
  have block : field.layout.blockSize = dim.size := fits ▸ spans.block
  rcases NodalVelocity.exists_writeNodes block each with ⟨after, written, same, holds⟩
  refine ⟨after, written, same.trans fits, ?_⟩
  intro node inside
  rcases spans.exists_vector sourceFits inside with ⟨x, read⟩
  have value : found node = f x := by
    simp only [found, read]
    rfl
  have member : node ∈ field.layout.nodes := by
    rw [fits]
    exact spans.mem_nodes_iff.mpr inside
  exact ⟨x, read, value ▸ holds node member⟩

theorem exists_displace (spans : layout.Spans dim nodes) (sourceFits : source.layout = layout)
    (fits : field.layout = layout) (displacement : RigidDisplacement α) :
    ∃ after, NodalField.displace dim displacement source field = .ok () after ∧
      after.layout = layout := by
  subst sourceFits
  have aligned : source.layout.owned = ⟨0 * dim.size, nodes * dim.size⟩ := by
    rw [spans.owned, Nat.zero_mul]
  rcases NodalField.exists_displace fits spans.block aligned with ⟨after, moved, same, -⟩
  exact ⟨after, moved, same.trans fits⟩

/-- Forces on all nodes can be added up. -/
theorem exists_tally (spans : layout.Spans dim nodes) (fits : field.layout = layout) (part : Nat)
    (before : SpreadTally α) :
    ∃ after, AnalyticFlow.tally dim part field before = .ok () after := by
  apply AnalyticFlow.exists_tally
  intro node member
  rw [fits] at member
  exact spans.exists_vector fits (spans.mem_nodes_iff.mp member)

end FieldLayout.Spans

/-! ## Mass properties -/

/-- Mass properties are computed from positions at all nodes unless the volume is not positive. -/
theorem MassProperties.compute_cases [Scalar α] {mesh : Mesh shape α} {cells : List Nat}
    {positions : NodalField α} {layout : FieldLayout}
    (spans : layout.Spans shape.dim mesh.vertices.size)
    (inside : ∀ number ∈ cells, number < mesh.cells.size) (fits : positions.layout = layout)
    (rule : QuadratureRule α) :
    (∃ mass, (compute mesh cells positions rule).alone = .ok mass) ∨
      ∃ volume, (compute mesh cells positions rule).alone =
        .error (.because (.nonPositiveVolume volume)) := by
  have onCells : ∃ parts, cells.mapM (mesh.cellSamples positions rule) = .ok parts := by
    apply exists_mapM
    intro number member
    have below := inside number member
    have readable : ∃ element, positions.onCell shape.dim mesh.cells[number] = .ok element :=
      exists_vector_mapM fun i bound => spans.exists_vector fits (mesh.inBounds number below i bound)
    rcases readable with ⟨element, read⟩
    refine ⟨element.samples rule, ?_⟩
    rw [Mesh.cellSamples, Array.getElem?_eq_getElem below]
    simp only [read]
    rfl
  rcases onCells with ⟨parts, sampled⟩
  have samples : mesh.samples cells positions rule = .ok parts.flatten := by
    rw [Mesh.samples, sampled]
    rfl
  simp only [compute, samples, Collective.alone_bind, Collective.alone_mk_pure,
    Collective.alone_sum]
  split
  · exact Or.inr ⟨_, rfl⟩
  · exact Or.inl ⟨_, rfl⟩

/-! ## Structures -/

/-- The fields of a step of an intact structure. -/
structure StepFields.Intact (layout : FieldLayout) (step : StepFields α) : Prop where
  halfPositions : step.halfPositions.layout = layout
  newPositions : step.newPositions.layout = layout
  halfForce : step.halfForce.layout = layout
  halfVelocity : step.halfVelocity.layout = layout
  newVelocity : step.newVelocity.layout = layout
  constrainedVelocity : step.constrainedVelocity.layout = layout
  halfSynchronized : step.halfPositions.synchronized = true
  newSynchronized : step.newPositions.synchronized = true

variable [Scalar α]

namespace RigidStructure

/-- A structure that moves rigidly and whose fields have its layout, in a step or outside of it. -/
structure Intact (inStep : Bool) (layout : FieldLayout) (body : RigidStructure shape α) : Prop where
  layout_eq : body.layout = layout
  spans : layout.Spans shape.dim body.mesh.vertices.size
  cells : ∀ number ∈ body.partition.cells, number < body.mesh.cells.size
  nodalVelocity : body.nodalVelocity = .rigid shape.dim
  positions : body.positions.layout = layout
  constraintForce : body.constraintForce.layout = layout
  constrainedVelocity : body.constrainedVelocity.layout = layout
  lagrangianVelocity : body.lagrangianVelocity.layout = layout
  synchronized : body.positions.synchronized = true
  /-- There are fields of a step exactly in a step. -/
  step_isSome : body.step.isSome = inStep
  step : ∀ step, body.step = some step → step.Intact layout

namespace Intact

variable {inStep : Bool} {layout : FieldLayout} {body : RigidStructure shape α}
  {step : StepFields α}

theorem exists_step (intact : body.Intact true layout) :
    ∃ step, body.step = some step ∧ step.Intact layout := by
  rcases Option.isSome_iff_exists.mp intact.step_isSome with ⟨step, found⟩
  exact ⟨step, found, intact.step step found⟩

theorem withStep (intact : body.Intact inStep layout) (fits : step.Intact layout) :
    { body with step := some step }.Intact true layout :=
  { intact with
    step_isSome := rfl
    step := by
      rintro _ ⟨⟩
      exact fits }

theorem withMass (intact : body.Intact inStep layout) (mass : MassProperties α) :
    (body.withMass mass).Intact inStep layout :=
  { intact with }

theorem withHalfMass (intact : body.Intact inStep layout) (halfMass : MassProperties α) :
    { body with halfMass }.Intact inStep layout :=
  { intact with }

theorem withVelocity (intact : body.Intact inStep layout)
    (velocity : TimeLevels (RigidVelocity α)) : { body with velocity }.Intact inStep layout :=
  { intact with }

/-- The fields of a step start out from those of the structure. -/
theorem opened (intact : body.Intact false layout) (window : StepWindow α) :
    (body.opened window).Intact true layout :=
  { intact with
    step_isSome := rfl
    step := by
      rintro _ ⟨⟩
      exact {
        halfPositions := intact.positions
        newPositions := intact.positions
        halfForce := intact.constraintForce
        halfVelocity := intact.lagrangianVelocity
        newVelocity := intact.lagrangianVelocity
        constrainedVelocity := intact.constrainedVelocity
        halfSynchronized := intact.synchronized
        newSynchronized := intact.synchronized } }

/-- The fields of a step become those of the structure, with a constraint force that fits. -/
theorem committed (intact : body.Intact inStep layout) (fits : step.Intact layout)
    {constraintForce : NodalField α} (same : constraintForce.layout = layout) :
    { body.committed step with constraintForce }.Intact false layout :=
  { intact with
    positions := fits.newPositions
    constraintForce := same
    constrainedVelocity := fits.constrainedVelocity
    lagrangianVelocity := fits.newVelocity
    synchronized := fits.newSynchronized
    step_isSome := rfl
    step := by
      intro step missing
      cases missing }

theorem positionsAt (intact : body.Intact inStep layout) (fits : step.Intact layout)
    (level : TimeLevel) : (body.positionsAt step level).layout = layout := by
  cases level with
  | current =>
      exact intact.positions
  | half =>
      exact fits.halfPositions
  | new =>
      exact fits.newPositions

theorem flowVelocityAt (intact : body.Intact inStep layout) (fits : step.Intact layout)
    (level : TimeLevel) : (body.flowVelocityAt step level).layout = layout := by
  cases level with
  | current =>
      exact intact.lagrangianVelocity
  | half =>
      exact fits.halfVelocity
  | new =>
      exact fits.newVelocity

/-- Another velocity of the flow with the same layout, in a step. -/
theorem withFlowVelocity (intact : body.Intact true layout) (found : body.step = some step)
    (level : TimeLevel) {velocity : NodalField α} (same : velocity.layout = layout) :
    ∃ step', (body.withFlowVelocity step level velocity).step = some step' ∧
      (body.withFlowVelocity step level velocity).Intact true layout := by
  have fits := intact.step step found
  cases level with
  | current =>
      exact ⟨step, found, { intact with lagrangianVelocity := same }⟩
  | half =>
      exact ⟨_, rfl, intact.withStep { fits with halfVelocity := same }⟩
  | new =>
      exact ⟨_, rfl, intact.withStep { fits with newVelocity := same }⟩

end Intact

/-- A structure that is set up on the only rank is intact. -/
theorem intact_of_setUp {description : StructureDescription shape α} {seat : Seat}
    {body : RigidStructure shape α} (serial : seat.size = 1)
    (rigid : description.nodalVelocity = .rigid shape.dim)
    (created : setUp description seat = .ok body) : body.Intact false body.layout := by
  have carries := carries_of_setUp serial created
  simp only [setUp, bind_eq_ok_iff, pure_eq_ok_iff] at created
  rcases created with ⟨layout, laidOut, positions, placed, rfl⟩
  have synchronized : positions.synchronized = true := by
    rw [NodalField.ofGlobal] at placed
    split_ifs at placed
    · cases placed
      rfl
    · cases placed
  exact {
    layout_eq := rfl
    spans := ⟨carries.sound.block, carries.sound.owned⟩
    cells := carries.sound.cells
    nodalVelocity := rigid
    positions := carries.sound.positions
    constraintForce := rfl
    constrainedVelocity := rfl
    lagrangianVelocity := rfl
    synchronized := synchronized
    step_isSome := rfl
    step := by
      intro step missing
      cases missing }

end RigidStructure

end ImmersedBody
