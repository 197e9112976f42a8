import ImmersedBody.Coordinator.Exchange
import ImmersedBody.Coordinator.Step
import ImmersedBody.Proofs.Rigid.Integrals

/-!
# Structures of a team

The members of a team share a structure if each of them holds its part of the
fields, and all of them have the same mass properties and rigid velocities.
Positions are fresh, for they are read at the nodes of whole cells.

The work of a coordinator on one structure keeps it shared, and ends for all
members in the same way.
-/

namespace ImmersedBody

open ImmersedBody.Action

variable {α : Type} [Scalar α] {shape : Shape} {p : Nat}

/-- Each member of a team holds its part of the fields of one step. -/
structure SharedStep (mesh : Mesh shape α) (steps : Team p → StepFields α) : Prop where
  halfPositions : FreshField mesh fun member => (steps member).halfPositions
  newPositions : FreshField mesh fun member => (steps member).newPositions
  halfForce : SharedField mesh fun member => (steps member).halfForce
  halfVelocity : SharedField mesh fun member => (steps member).halfVelocity
  newVelocity : SharedField mesh fun member => (steps member).newVelocity
  constrainedVelocity : SharedField mesh fun member => (steps member).constrainedVelocity

/-- Each member of a team holds its part of one structure. -/
structure SharedStructure (description : StructureDescription shape α)
    (bodies : Team p → RigidStructure shape α) : Prop where
  mesh : ∀ member, (bodies member).mesh = description.mesh
  partition : ∀ member, (bodies member).partition = .ofMesh description.mesh member.seat
  layout : ∀ member, (Partition.ofMesh description.mesh member.seat).layout shape.dim.size =
    .ok (bodies member).layout
  motion : ∀ member, (bodies member).motion = description.motion
  nodalVelocity : ∀ member, (bodies member).nodalVelocity = .rigid shape.dim
  positions : FreshField description.mesh fun member => (bodies member).positions
  constraintForce : SharedField description.mesh fun member => (bodies member).constraintForce
  constrainedVelocity :
    SharedField description.mesh fun member => (bodies member).constrainedVelocity
  lagrangianVelocity :
    SharedField description.mesh fun member => (bodies member).lagrangianVelocity
  currentMass : Same fun member => (bodies member).currentMass
  halfMass : Same fun member => (bodies member).halfMass
  velocity : Same fun member => (bodies member).velocity
  step : (∀ member, (bodies member).step = none) ∨
    ∃ steps : Team p → StepFields α, (∀ member, (bodies member).step = some (steps member)) ∧
      SharedStep description.mesh steps

/-- A mesh has as many coordinates as its vertices have. -/
theorem Mesh.size_coordinates {α : Type} (mesh : Mesh shape α) :
    mesh.coordinates.size = mesh.vertices.size * shape.dim.size := by
  have sizes : mesh.vertices.map (fun vertex => (shape.dim.coords vertex).toArray.size) =
      Array.replicate mesh.vertices.size shape.dim.size := by
    apply Array.ext
    · simp
    · intro i _ _
      simp
  rw [coordinates, Array.size_flatMap, sizes, Array.sum_replicate_nat]

/-- Forces that can be read at all their nodes can be added up. -/
theorem AnalyticFlow.exists_tally {dim : Dim} {part : Nat} {forces : NodalField α}
    (readable : ∀ node ∈ forces.layout.nodes, ∃ force, forces.vector dim node = .ok force)
    (before : SpreadTally α) : ∃ after, tally dim part forces before = .ok () after := by
  let step (node : Nat) : EStateM (Stop α) (SpreadTally α) Unit := do
    let force ← NodalVelocity.read (forces.vector dim node)
    modify fun tally => tally.add part force
  have each : ∀ (nodes : List Nat), (∀ node ∈ nodes, ∃ force, forces.vector dim node = .ok force) →
      ∀ before, ∃ after, NodalVelocity.forNodes step nodes before = .ok () after := by
    intro nodes
    induction nodes with
    | nil =>
        exact fun _ before => ⟨before, rfl⟩
    | cons node nodes ih =>
        intro readable before
        rcases readable node List.mem_cons_self with ⟨force, found⟩
        rcases ih (fun other member => readable other (List.mem_cons_of_mem node member))
          (before.add part force) with ⟨after, added⟩
        have first : step node before = .ok () (before.add part force) := by
          simp only [step, found]
          rfl
        refine ⟨after, ?_⟩
        show EStateM.bind (step node) (fun _ => NodalVelocity.forNodes step nodes) before = _
        simp only [EStateM.bind, first, added]
  rcases each _ readable before with ⟨after, added⟩
  refine ⟨{ after with calls := after.calls + 1 }, ?_⟩
  show EStateM.bind (NodalVelocity.forNodes step forces.layout.nodes) _ before = _
  simp only [EStateM.bind, added]
  rfl

namespace SharedStructure

variable {description : StructureDescription shape α} {bodies : Team p → RigidStructure shape α}

/-- Every member sets up its part of a structure. -/
theorem exists_setUp (rigid : description.nodalVelocity = .rigid shape.dim) :
    ∃ bodies : Team p → RigidStructure shape α,
      (∀ member, RigidStructure.setUp description member.seat = .ok (bodies member)) ∧
        SharedStructure description bodies := by
  have made : ∀ member : Team p, ∃ layout,
      (Partition.ofMesh description.mesh member.seat).layout shape.dim.size = .ok layout := by
    intro member
    rcases Partition.exists_layout description.mesh member.seat shape.dim.size_pos with ⟨layout, made, -⟩
    exact ⟨layout, made⟩
  choose layouts layout using made
  rcases FreshField.exists_ofGlobal layout description.mesh.size_coordinates with
    ⟨positions, created, fresh⟩
  let body (member : Team p) : RigidStructure shape α := {
    mesh := description.mesh
    partition := .ofMesh description.mesh member.seat
    layout := layouts member
    motion := description.motion
    nodalVelocity := description.nodalVelocity
    positions := positions member
    constraintForce := .zeros (layouts member)
    constrainedVelocity := .zeros (layouts member)
    lagrangianVelocity := .zeros (layouts member)
    currentMass := .none
    halfMass := .none
    velocity := .uniform description.initialVelocity
    step := none }
  refine ⟨body, ?_, ?_⟩
  · intro member
    simp only [RigidStructure.setUp, layout, Except.mapError, bind, Except.bind, created]
    rfl
  · have zeros := SharedField.constant (0 : α) layout
    exact {
      mesh := fun _ => rfl
      partition := fun _ => rfl
      layout := layout
      motion := fun _ => rfl
      nodalVelocity := fun _ => rigid
      positions := fresh
      constraintForce := zeros
      constrainedVelocity := zeros
      lagrangianVelocity := zeros
      currentMass := fun _ => rfl
      halfMass := fun _ => rfl
      velocity := fun _ => rfl
      step := Or.inl fun _ => rfl }

/-! ## Fields of a step -/

/-- Either all members have the fields of a step, or none has. -/
theorem stepFields (shared : SharedStructure description bodies) (part : Nat) :
    (∀ member, Coordinator.stepFields part (bodies member) =
        .error (.because (.noStepData part))) ∨
      ∃ steps : Team p → StepFields α,
        (∀ member, Coordinator.stepFields part (bodies member) = .ok (steps member)) ∧
          SharedStep description.mesh steps := by
  rcases shared.step with without | ⟨steps, found, sharedStep⟩
  · left
    intro member
    rw [Coordinator.stepFields, without]
  · refine Or.inr ⟨steps, ?_, sharedStep⟩
    intro member
    rw [Coordinator.stepFields, found]

theorem joint_stepFields {σ : Type} {states : Team p → σ} {stopped : (Team p → σ) → Prop}
    (shared : SharedStructure description bodies) (part : Nat) (bad : stopped states) :
    Joint (fun member => Action.of fun state : σ =>
        .done (Coordinator.stepFields part (bodies member), state)) states
      (fun steps afters => SharedStep description.mesh steps ∧ states = afters) stopped := by
  rcases shared.stepFields part with refused | ⟨steps, read, sharedStep⟩
  · have refusal : (Stop.because (.noStepData part) : Stop α).IsRefusal := trivial
    exact joint_of_error (f := fun member _ => Coordinator.stepFields part (bodies member))
      refusal refused bad
  · apply Joint.weaken
      (joint_of_ok (f := fun member _ => Coordinator.stepFields part (bodies member)) read)
    rintro _ _ ⟨rfl, rfl⟩
    exact ⟨sharedStep, rfl⟩

/-- The structures with other fields of the step. -/
theorem withStep (shared : SharedStructure description bodies) {steps : Team p → StepFields α}
    (sharedStep : SharedStep description.mesh steps) :
    SharedStructure description fun member => { bodies member with step := some (steps member) } :=
  { shared with step := Or.inr ⟨steps, fun _ => rfl, sharedStep⟩ }

/-! ## Mass properties -/

theorem center_halfMass (shared : SharedStructure description bodies) (member : Team p) :
    (bodies member).halfMass.center = (bodies none).halfMass.center :=
  congrArg MassProperties.center (shared.halfMass member)

theorem joint_massAt (shared : SharedStructure description bodies) (someone : 0 < p)
    {positions : Team p → NodalField α} (fresh : FreshField description.mesh positions)
    (order : Nat) :
    Collective.Joint (fun member => (bodies member).massAt (positions member) order) Same := by
  simp only [RigidStructure.massAt, shared.mesh, shared.partition]
  exact joint_massProperties someone fresh _

/-! ## Positions -/

theorem joint_predict (shared : SharedStructure description bodies) (someone : 0 < p)
    (objectName : String) (order part : Nat) (window : StepWindow α) :
    Joint (fun member : Team p => Coordinator.predict member.seat objectName order window part)
      bodies (fun _ => SharedStructure description) (SharedStructure description) := by
  simp only [Coordinator.predict]
  apply joint_bind joint_get
  rintro _ _ ⟨rfl, rfl⟩
  apply joint_bind (shared.joint_stepFields part shared)
  rintro steps _ ⟨sharedStep, rfl⟩
  have same : Same fun member => RigidDisplacement.about (bodies member).currentMass.center
      (bodies member).velocity.current.translational (bodies member).velocity.current.rotational
      (Scalar.half * window.length) := by
    intro member
    simp only [shared.currentMass member, shared.velocity member]
  rcases sharedStep.halfPositions.exists_displace shared.positions.toSharedField same with
    ⟨moved, displaced, sharedMoved⟩
  apply joint_bind
  · exact joint_part displaced
  rintro _ _ ⟨-, rfl⟩
  apply joint_bind joint_get
  rintro _ _ ⟨rfl, rfl⟩
  apply joint_bind (joint_of_ok fun _ => rfl)
  rintro _ _ ⟨rfl, rfl⟩
  apply joint_bind (joint_completes (sharedMoved.completes_close someone))
  rintro closed _ ⟨fresh, rfl⟩
  have sharedAfter : SharedStep description.mesh fun member =>
      { steps member with halfPositions := closed member } :=
    { sharedStep with halfPositions := fresh }
  have after := shared.withStep sharedAfter
  apply joint_bind (joint_set _)
  rintro _ _ rfl
  have mass := joint_collective (after.joint_massAt someone fresh order) after
  apply joint_bind (joint_attempt (same_const objectName) mass)
  rintro masses _ ⟨sameMass, rfl⟩
  apply (joint_set _).weaken
  rintro _ _ rfl
  exact { after with halfMass := sameMass }

theorem joint_update (shared : SharedStructure description bodies) (someone : 0 < p) (part : Nat)
    (window : StepWindow α) :
    Joint (fun member : Team p => Coordinator.update member.seat window part) bodies
      (fun _ => SharedStructure description) (SharedStructure description) := by
  simp only [Coordinator.update]
  apply joint_bind joint_get
  rintro _ _ ⟨rfl, rfl⟩
  apply joint_bind (shared.joint_stepFields part shared)
  rintro steps _ ⟨sharedStep, rfl⟩
  have same : Same fun member => RigidDisplacement.about (bodies member).currentMass.center
      (bodies member).velocity.half.translational (bodies member).velocity.half.rotational
      window.length := by
    intro member
    simp only [shared.currentMass member, shared.velocity member]
  rcases sharedStep.newPositions.exists_displace shared.positions.toSharedField same with
    ⟨moved, displaced, sharedMoved⟩
  apply joint_bind
  · exact joint_part displaced
  rintro _ _ ⟨-, rfl⟩
  apply joint_bind joint_get
  rintro _ _ ⟨rfl, rfl⟩
  apply joint_bind (joint_of_ok fun _ => rfl)
  rintro _ _ ⟨rfl, rfl⟩
  apply joint_bind (joint_completes (sharedMoved.completes_close someone))
  rintro closed _ ⟨fresh, rfl⟩
  apply (joint_set _).weaken
  rintro _ _ rfl
  have sharedAfter : SharedStep description.mesh fun member =>
      { steps member with newPositions := closed member } :=
    { sharedStep with newPositions := fresh }
  exact shared.withStep sharedAfter

/-! ## Exchange with a flow -/

variable {steps : Team p → StepFields α}

theorem positionsAt (shared : SharedStructure description bodies)
    (sharedStep : SharedStep description.mesh steps) (level : TimeLevel) :
    FreshField description.mesh fun member => (bodies member).positionsAt (steps member) level := by
  cases level with
  | current =>
      exact shared.positions
  | half =>
      exact sharedStep.halfPositions
  | new =>
      exact sharedStep.newPositions

theorem flowVelocityAt (shared : SharedStructure description bodies)
    (sharedStep : SharedStep description.mesh steps) (level : TimeLevel) :
    SharedField description.mesh fun member =>
      (bodies member).flowVelocityAt (steps member) level := by
  cases level with
  | current =>
      exact shared.lagrangianVelocity
  | half =>
      exact sharedStep.halfVelocity
  | new =>
      exact sharedStep.newVelocity

theorem withFlowVelocity (shared : SharedStructure description bodies)
    (sharedStep : SharedStep description.mesh steps) (level : TimeLevel)
    {velocities : Team p → NodalField α} (velocity : SharedField description.mesh velocities) :
    SharedStructure description fun member =>
      (bodies member).withFlowVelocity (steps member) level (velocities member) := by
  cases level with
  | current =>
      exact { shared with lagrangianVelocity := velocity }
  | half =>
      exact shared.withStep { sharedStep with halfVelocity := velocity }
  | new =>
      exact shared.withStep { sharedStep with newVelocity := velocity }

/-- All members sample a velocity field at the nodes that they own. -/
theorem joint_interpolateOnto (shared : SharedStructure description bodies) (someone : 0 < p)
    (objectName : String) (field : Vec3 α → α → Vec3 α) (level : TimeLevel) (time : α)
    (part : Nat) (tallies : Team p → SpreadTally α) :
    Joint (fun member : Team p => Coordinator.interpolateOnto member.seat objectName
        (AnalyticFlow.transfer shape.dim field) level time part)
      (fun member => (bodies member, tallies member))
      (fun _ after => SharedStructure description fun member => (after member).1)
      fun after => SharedStructure description fun member => (after member).1 := by
  simp only [Coordinator.interpolateOnto]
  apply joint_bind joint_get
  rintro _ _ ⟨rfl, rfl⟩
  apply joint_bind
  · exact shared.joint_stepFields part shared
  rintro steps _ ⟨sharedStep, rfl⟩
  rcases (shared.positionsAt sharedStep level).toSharedField.exists_writeMapped
    (shared.flowVelocityAt sharedStep level) (same_const fun x => field x time) with
    ⟨velocities, written, sampled⟩
  have after := shared.withFlowVelocity sharedStep level sampled
  have worked : ∀ member, (AnalyticFlow.transfer shape.dim field).interpolate part
      ((bodies member).positionsAt (steps member) level) time
      ((bodies member).flowVelocityAt (steps member) level, tallies member) =
        .ok () (velocities member, tallies member) := by
    intro member
    simp only [AnalyticFlow.transfer, AnalyticFlow.sample, written]
  apply joint_bind
  · apply joint_attempt (same_const objectName)
    exact joint_part worked
  rintro _ _ ⟨-, rfl⟩
  apply joint_bind joint_get
  rintro _ _ ⟨rfl, rfl⟩
  apply joint_bind
  · exact after.joint_stepFields part after
  rintro steps' _ ⟨sharedStep', rfl⟩
  apply joint_bind (joint_completes
    ((after.flowVelocityAt sharedStep' level).completes_close someone))
  rintro closed _ ⟨fresh, rfl⟩
  apply (joint_set _).weaken
  rintro _ _ rfl
  exact after.withFlowVelocity sharedStep' level fresh.toSharedField

/-- All members can add up the half-time forces at the nodes that they own. -/
theorem joint_spreadFrom (shared : SharedStructure description bodies) (objectName : String)
    (field : Vec3 α → α → Vec3 α) (level : TimeLevel) (time : α) (part : Nat)
    (tallies : Team p → SpreadTally α) :
    Joint (fun _ : Team p => Coordinator.spreadFrom objectName
        (AnalyticFlow.transfer shape.dim field) level time part)
      (fun member => (bodies member, tallies member))
      (fun _ after => SharedStructure description fun member => (after member).1)
      fun after => SharedStructure description fun member => (after member).1 := by
  simp only [Coordinator.spreadFrom]
  apply joint_bind joint_get
  rintro _ _ ⟨rfl, rfl⟩
  apply joint_bind
  · exact shared.joint_stepFields part shared
  rintro steps _ ⟨sharedStep, rfl⟩
  have added : ∀ member, ∃ after,
      AnalyticFlow.tally shape.dim part (steps member).halfForce (tallies member) =
        .ok () after := by
    intro member
    apply AnalyticFlow.exists_tally
    intro node inside
    rcases sharedStep.halfForce.exists_vectors with ⟨forces, read, -⟩
    exact ⟨_, read member node (sharedStep.halfForce.mem_nodes.mp inside)⟩
  choose after tallied using added
  have spread : Joint (fun member : Team p => Action.part
        (fun (state : RigidStructure shape α × SpreadTally α) => state.2)
        (fun shared (state : RigidStructure shape α × SpreadTally α) => (state.1, shared))
        (AnalyticFlow.tally shape.dim part (steps member).halfForce))
      (fun member => (bodies member, tallies member))
      (fun _ after => SharedStructure description fun member => (after member).1)
      fun after => SharedStructure description fun member => (after member).1 := by
    apply Joint.weaken
    · exact joint_part tallied
    rintro _ _ ⟨-, rfl⟩
    exact shared
  exact joint_attempt (same_const objectName) spread

/-! ## Exchange with the constraint solver -/

/-- All members store their part of a force, times a factor. -/
theorem joint_storeForce (shared : SharedStructure description bodies) (someone : 0 < p)
    {composites : Team p → CompositeField α} {part : Nat} {sources : Team p → NodalField α}
    (found : ∀ member, (composites member).parts[part]? = some (sources member))
    (source : SharedField description.mesh sources) (factor : α) :
    Joint (fun member : Team p =>
        Coordinator.storeForce member.seat (composites member) factor part) bodies
      (fun _ => SharedStructure description) (SharedStructure description) := by
  simp only [Coordinator.storeForce, found]
  apply joint_bind joint_get
  rintro _ _ ⟨rfl, rfl⟩
  apply joint_bind (shared.joint_stepFields part shared)
  rintro steps _ ⟨sharedStep, rfl⟩
  have copied : ∀ member, (steps member).halfForce.copyFrom (sources member) =
      .ok (sources member) := sharedStep.halfForce.copyFrom source
  simp only [copied]
  apply joint_bind (joint_set _)
  rintro _ _ rfl
  apply joint_bind (joint_completes ((source.scale factor).completes_close someone))
  rintro closed _ ⟨fresh, rfl⟩
  apply (joint_set _).weaken
  rintro _ _ rfl
  have sharedAfter : SharedStep description.mesh fun member =>
      { steps member with halfForce := closed member } :=
    { sharedStep with halfForce := fresh.toSharedField }
  exact shared.withStep sharedAfter

/-- All members find the same net force. -/
theorem joint_integrateForce (shared : SharedStructure description bodies) (someone : 0 < p)
    {forces : Team p → NodalField α} (force : SharedField description.mesh forces)
    (objectName : String) (order part : Nat) :
    Joint (fun member : Team p =>
        Coordinator.integrateForce member.seat objectName order part (forces member)) bodies
      (fun values after => Same values ∧ SharedStructure description after)
      (SharedStructure description) := by
  simp only [Coordinator.integrateForce]
  apply joint_bind joint_get
  rintro _ _ ⟨rfl, rfl⟩
  apply joint_bind (shared.joint_stepFields part shared)
  rintro steps _ ⟨sharedStep, rfl⟩
  have copied : ∀ member, (steps member).halfForce.copyFrom (forces member) =
      .ok (forces member) := sharedStep.halfForce.copyFrom force
  simp only [copied]
  apply joint_bind (joint_set _)
  rintro _ _ rfl
  apply joint_bind (joint_completes (force.completes_close someone))
  rintro closed _ ⟨fresh, rfl⟩
  have sharedAfter : SharedStep description.mesh fun member =>
      { steps member with halfForce := closed member } :=
    { sharedStep with halfForce := fresh.toSharedField }
  have after := shared.withStep sharedAfter
  apply joint_bind (joint_set _)
  rintro _ _ rfl
  have integrated : Collective.Joint (fun member : Team p =>
      generalizedForce (bodies member).mesh (bodies member).mesh (bodies member).partition.cells
        (steps member).halfPositions (closed member) (bodies member).halfMass.center
        (shape.rule order)) Same := by
    simp only [shared.mesh, shared.partition, shared.center_halfMass]
    exact joint_generalizedForce someone sharedStep.halfPositions fresh _ _
  apply (joint_attempt (same_const objectName) (joint_collective integrated after)).weaken
  rintro values _ ⟨same, rfl⟩
  exact ⟨same, after⟩

/-- All members expand a rigid velocity at the nodes that they own. -/
theorem joint_expandVelocity (shared : SharedStructure description bodies) (someone : 0 < p)
    (objectName : String) (part : Nat) (velocity : RigidVelocity α) (time : α) :
    Joint (fun member : Team p =>
        Coordinator.expandVelocity member.seat objectName part velocity time) bodies
      (fun expanded after => SharedField description.mesh expanded ∧
        SharedStructure description after)
      (SharedStructure description) := by
  simp only [Coordinator.expandVelocity]
  apply joint_bind joint_get
  rintro _ _ ⟨rfl, rfl⟩
  apply joint_bind (shared.joint_stepFields part shared)
  rintro steps _ ⟨sharedStep, rfl⟩
  have rigid : Same fun member : Team p => fun x =>
      velocity.atOffset (x - (bodies member).halfMass.center) :=
    shared.halfMass.map fun mass x => velocity.atOffset (x - mass.center)
  rcases sharedStep.halfPositions.toSharedField.exists_writeMapped sharedStep.constrainedVelocity
    rigid with ⟨velocities, written, expanded⟩
  have sharedAfter : SharedStep description.mesh fun member =>
      { steps member with constrainedVelocity := velocities member } :=
    { sharedStep with constrainedVelocity := expanded }
  have after := shared.withStep sharedAfter
  have worked : ∀ member, (bodies member).nodalVelocity velocity (steps member).halfPositions
      (bodies member).halfMass.center time (steps member).constrainedVelocity =
        .ok () (velocities member) := by
    intro member
    rw [shared.nodalVelocity]
    exact written member
  apply joint_bind
  · apply joint_attempt (same_const objectName)
    exact joint_part worked
  rintro _ _ ⟨-, rfl⟩
  apply joint_bind joint_get
  rintro _ _ ⟨rfl, rfl⟩
  apply joint_bind (joint_of_ok fun _ => rfl)
  rintro _ _ ⟨rfl, rfl⟩
  apply joint_bind (joint_completes (expanded.completes_close someone))
  rintro closed _ ⟨fresh, rfl⟩
  apply joint_bind (joint_set _)
  rintro _ _ rfl
  apply (joint_pure closed).weaken
  rintro _ _ ⟨rfl, rfl⟩
  have sharedLast : SharedStep description.mesh fun member =>
      { steps member with constrainedVelocity := closed member } :=
    { sharedStep with constrainedVelocity := fresh.toSharedField }
  exact ⟨fresh.toSharedField, shared.withStep sharedLast⟩

/-! ## Opening and closing a step -/

theorem withMass (shared : SharedStructure description bodies)
    {masses : Team p → MassProperties α} (same : Same masses) :
    SharedStructure description fun member => (bodies member).withMass (masses member) :=
  { shared with currentMass := same, halfMass := same }

theorem withVelocity (shared : SharedStructure description bodies)
    {velocities : Team p → TimeLevels (RigidVelocity α)} (same : Same velocities) :
    SharedStructure description fun member =>
      { bodies member with velocity := velocities member } :=
  { shared with velocity := same }

theorem opened (shared : SharedStructure description bodies) (window : StepWindow α) :
    SharedStructure description fun member => (bodies member).opened window := by
  have sharedStep : SharedStep description.mesh fun member : Team p => {
      halfPositions := (bodies member).positions
      newPositions := (bodies member).positions
      halfForce := (bodies member).constraintForce
      halfVelocity := (bodies member).lagrangianVelocity
      newVelocity := (bodies member).lagrangianVelocity
      constrainedVelocity := (bodies member).constrainedVelocity } :=
    { halfPositions := shared.positions
      newPositions := shared.positions
      halfForce := shared.constraintForce
      halfVelocity := shared.lagrangianVelocity
      newVelocity := shared.lagrangianVelocity
      constrainedVelocity := shared.constrainedVelocity }
  apply (shared.withStep sharedStep).withVelocity
  intro member
  simp only [shared.motion member, shared.motion none, shared.velocity member]

theorem committed (shared : SharedStructure description bodies)
    (sharedStep : SharedStep description.mesh steps) :
    SharedStructure description fun member => (bodies member).committed (steps member) :=
  { shared with
    positions := sharedStep.newPositions
    lagrangianVelocity := sharedStep.newVelocity
    constrainedVelocity := sharedStep.constrainedVelocity
    step := Or.inl fun _ => rfl }

/-- All members make the fields of the step their own. -/
theorem joint_commit (shared : SharedStructure description bodies) (objectName : String)
    {newForces : Team p → Option (List (NodalField α))} {part : Nat}
    (forces : (∀ member, (newForces member).bind (·[part]?) = none) ∨
      ∃ sources : Team p → NodalField α,
        (∀ member, (newForces member).bind (·[part]?) = some (sources member)) ∧
          SharedField description.mesh sources) :
    Joint (fun member : Team p => Coordinator.commit objectName (newForces member) part) bodies
      (fun _ => SharedStructure description) (SharedStructure description) := by
  simp only [Coordinator.commit]
  apply joint_bind joint_get
  rintro _ _ ⟨rfl, rfl⟩
  rcases shared.step with without | ⟨steps, found, sharedStep⟩
  · simp only [without]
    exact joint_refuse trivial shared
  simp only [found]
  have committed := shared.committed sharedStep
  have moveOn {after : Team p → RigidStructure shape α}
      (shared : SharedStructure description after) :
      Joint (fun _ : Team p => (modify fun body =>
          { body with velocity := { body.velocity with current := body.velocity.new } } :
            Action α (RigidStructure shape α) PUnit)) after
        (fun _ => SharedStructure description) (SharedStructure description) := by
    apply (joint_modify _).weaken
    rintro _ _ rfl
    apply shared.withVelocity
    intro member
    simp only [shared.velocity member]
  apply joint_bind (joint_set _)
  rintro _ _ rfl
  rcases forces with without | ⟨sources, given, source⟩
  · simp only [without]
    exact moveOn committed
  · have copied : ∀ member, ((bodies member).committed (steps member)).constraintForce.copyFrom
        (sources member) = .ok (sources member) := committed.constraintForce.copyFrom source
    simp only [given, copied]
    apply joint_bind (joint_set _)
    rintro _ _ rfl
    exact moveOn { committed with constraintForce := source }

end SharedStructure

end ImmersedBody
