import ImmersedBody.Proofs.Coordinator.HandOff
import ImmersedBody.Proofs.Coordinator.Sessions

/-!
# Distributed sessions

A program that all ranks of a cluster carry out stays aligned, whatever the
scalars are: `stays_aligned`.  If the order of addition does not matter, the
cluster refines the serial run of the program: `refines_alone`.  Call by call
the ranks report what the serial run reports, and every rank holds its part of
what the serial run holds.
-/

namespace ImmersedBody

open ImmersedBody.Action

variable {α : Type} [Scalar α] {shape : Shape} {p : Nat}

/-! ## Parts of a whole -/

/-- The entries that the rank owns are those of the whole field. -/
def NodalField.Agrees (field whole : NodalField α) : Prop :=
  ∀ entry, field.layout.Owns entry → ∃ value, field.get entry = .ok value ∧
    whole.get entry = .ok value

/-- The rank owns the entries of its nodes, and they are those of the whole field. -/
structure NodalField.PartOf (partition : Partition) (dim : Dim) (field whole : NodalField α) :
    Prop where
  layout : partition.layout dim.size = .ok field.layout
  agrees : field.Agrees whole

/-- The rank holds its part of the fields of a step. -/
structure StepFields.PartOf (partition : Partition) (dim : Dim) (step whole : StepFields α) :
    Prop where
  halfPositions : step.halfPositions.PartOf partition dim whole.halfPositions
  newPositions : step.newPositions.PartOf partition dim whole.newPositions
  halfForce : step.halfForce.PartOf partition dim whole.halfForce
  halfVelocity : step.halfVelocity.PartOf partition dim whole.halfVelocity
  newVelocity : step.newVelocity.PartOf partition dim whole.newVelocity
  constrainedVelocity : step.constrainedVelocity.PartOf partition dim whole.constrainedVelocity

/-- The rank at a place holds its part of a structure. -/
structure RigidStructure.PartOf (seat : Seat) (body whole : RigidStructure shape α) : Prop where
  mesh : body.mesh = whole.mesh
  partition : body.partition = .ofMesh whole.mesh seat
  positions : body.positions.PartOf body.partition shape.dim whole.positions
  constraintForce : body.constraintForce.PartOf body.partition shape.dim whole.constraintForce
  constrainedVelocity :
    body.constrainedVelocity.PartOf body.partition shape.dim whole.constrainedVelocity
  lagrangianVelocity :
    body.lagrangianVelocity.PartOf body.partition shape.dim whole.lagrangianVelocity
  currentMass : body.currentMass = whole.currentMass
  halfMass : body.halfMass = whole.halfMass
  velocity : body.velocity = whole.velocity
  step : Option.Rel (StepFields.PartOf body.partition shape.dim) body.step whole.step

/-- The entries that the rank owns in all parts are those of the whole composite. -/
def CompositeField.Agrees (composite whole : CompositeField α) : Prop :=
  List.Forall₂ NodalField.Agrees composite.parts whole.parts

/-- The rank at a place holds its part of a session. -/
structure Session.PartOf (seat : Seat) (session whole : Session shape α) : Prop where
  settings : session.coordinator.settings = whole.coordinator.settings
  place : session.coordinator.seat = seat
  structures : List.Forall₂ (RigidStructure.PartOf seat) session.coordinator.structures
    whole.coordinator.structures
  protocol : session.coordinator.protocol = whole.coordinator.protocol
  currentForces : Option.Rel CompositeField.Agrees session.coordinator.currentForces
    whole.coordinator.currentForces
  newForces : Option.Rel CompositeField.Agrees session.coordinator.newForces
    whole.coordinator.newForces
  listeners : session.coordinator.listeners = whole.coordinator.listeners
  initialized : session.coordinator.initialized = whole.coordinator.initialized
  composites : List.Forall₂ CompositeField.Agrees session.composites whole.composites

/-! ## What the members of a team share -/

section

variable {settings : Settings α} {descriptions : List (StructureDescription shape α)}

theorem SharedField.agrees_reference {mesh : Mesh shape α} {fields : Team p → NodalField α}
    (shared : SharedField mesh fields) (additive : ExactAddition α) (member : Team p) :
    (fields member).Agrees (fields none) := by
  intro entry owns
  rcases NodalField.get_of_owns owns with ⟨_, found⟩
  exact ⟨_, found, shared.agrees additive member entry owns ▸ found⟩

theorem SharedField.partOf {mesh : Mesh shape α} {fields : Team p → NodalField α}
    (shared : SharedField mesh fields) (additive : ExactAddition α) (member : Team p) :
    (fields member).PartOf (.ofMesh mesh member.seat) shape.dim (fields none) :=
  ⟨shared.layout member, shared.agrees_reference additive member⟩

theorem SharedStep.partOf {mesh : Mesh shape α} {steps : Team p → StepFields α}
    (shared : SharedStep mesh steps) (additive : ExactAddition α) (member : Team p) :
    (steps member).PartOf (.ofMesh mesh member.seat) shape.dim (steps none) where
  halfPositions := shared.halfPositions.toSharedField.partOf additive member
  newPositions := shared.newPositions.toSharedField.partOf additive member
  halfForce := shared.halfForce.partOf additive member
  halfVelocity := shared.halfVelocity.partOf additive member
  newVelocity := shared.newVelocity.partOf additive member
  constrainedVelocity := shared.constrainedVelocity.partOf additive member

theorem SharedStructure.partOf {description : StructureDescription shape α}
    {bodies : Team p → RigidStructure shape α} (shared : SharedStructure description bodies)
    (additive : ExactAddition α) (member : Team p) :
    (bodies member).PartOf member.seat (bodies none) := by
  have part {fields : Team p → NodalField α} (field : SharedField description.mesh fields) :
      (fields member).PartOf (bodies member).partition shape.dim (fields none) := by
    rw [shared.partition]
    exact field.partOf additive member
  exact {
    mesh := (shared.mesh member).trans (shared.mesh none).symm
    partition := by rw [shared.mesh none, shared.partition]
    positions := part shared.positions.toSharedField
    constraintForce := part shared.constraintForce
    constrainedVelocity := part shared.constrainedVelocity
    lagrangianVelocity := part shared.lagrangianVelocity
    currentMass := shared.currentMass member
    halfMass := shared.halfMass member
    velocity := shared.velocity member
    step := by
      rcases shared.step with without | ⟨steps, found, sharedStep⟩
      · rw [without, without]
        exact .none
      · rw [found, found, shared.partition]
        exact .some (sharedStep.partOf additive member) }

theorem SharedComposite.agrees {composites : Team p → CompositeField α}
    (shared : SharedComposite descriptions composites) (additive : ExactAddition α)
    (member : Team p) : (composites member).Agrees (composites none) :=
  Columns.forall₂_members shared fun _ _ field => field.agrees_reference additive member

theorem SharedForces.agrees {forces : Team p → Option (CompositeField α)}
    (shared : SharedForces descriptions forces) (additive : ExactAddition α) (member : Team p) :
    Option.Rel CompositeField.Agrees (forces member) (forces none) := by
  rcases shared with without | ⟨composites, found, composite⟩
  · rw [without, without]
    exact .none
  · rw [found, found]
    exact .some (composite.agrees additive member)

theorem SharedSession.partOf {sessions : Team p → Session shape α}
    (shared : SharedSession settings descriptions sessions) (additive : ExactAddition α)
    (member : Team p) : (sessions member).PartOf member.seat (sessions none) := by
  rcases shared.composites with ⟨places, columns⟩
  exact {
    settings := by rw [shared.coordinator.settings, shared.coordinator.settings]
    place := shared.coordinator.seat member
    structures := shared.coordinator.structures.forall₂_members fun _ _ row =>
      row.partOf additive member
    protocol := shared.coordinator.protocol member
    currentForces := shared.coordinator.currentForces.agrees additive member
    newForces := shared.coordinator.newForces.agrees additive member
    listeners := shared.coordinator.listeners member
    initialized := shared.coordinator.initialized member
    composites := columns.forall₂_members fun _ _ composite => composite.agrees additive member }

end

/-! ## Programs on a cluster -/

namespace Program

/-- What a program leads to on one rank: the reports and what the rank keeps after each call. -/
abbrev Log (shape : Shape) (α : Type) := List (Report shape α × Session shape α)

/--
All ranks make the same reports, and no call fails through a collective, unless
the registration is refused for all of them.
-/
def AlignedEnds (results : Fin p → Except (Stop α) (Log shape α)) : Prop :=
  (∃ stop, stop.IsRefusal ∧ results = fun _ => .error stop) ∨
    ∃ (logs : Fin p → Log shape α) (reports : List (Report shape α)),
      results = (fun rank => .ok (logs rank)) ∧ ∀ rank,
        List.Forall₂ (fun report entry => entry.1 = report ∧ report.Returned) reports (logs rank)

/--
Call by call every rank reports what the serial run reports, and holds its part
of what the serial run holds.
-/
def RefinedEnds (serial : Except (Stop α) (Log shape α))
    (results : Fin p → Except (Stop α) (Log shape α)) : Prop :=
  (∃ stop, serial = .error stop ∧ results = fun _ => .error stop) ∨
    ∃ (log : Log shape α) (logs : Fin p → Log shape α),
      serial = .ok log ∧ results = (fun rank => .ok (logs rank)) ∧ ∀ rank,
        List.Forall₂ (fun entry whole => entry.1 = whole.1 ∧ entry.2.PartOf (.of rank) whole.2)
          (logs rank) log

variable {settings : Settings α} {descriptions : List (StructureDescription shape α)}

/--
Under every schedule of a cluster, the ranks that carry out one program issue the
same collectives in the same order, and none of them fails.  All ranks make the
same reports, also of calls that fail.  Nothing is asked of the addition.
-/
theorem stays_aligned (someone : 0 < p) (settings : Settings α)
    (descriptions : List (StructureDescription shape α))
    (rigid : ∀ description ∈ descriptions, description.nodalVelocity = .rigid shape.dim)
    (field : Vec3 α → α → Vec3 α) (program : Program shape α)
    (fails : Except (Stop α) (Log shape α) → Bool) (schedule : List Nat) :
    let reached := Cluster.history fails p
      (fun seat => (program.session settings descriptions field seat).run) schedule
    Cluster.InStep (p := p) AlignedEnds reached.1 reached.2 := by
  have joint : Collective.Joint (fun member : Team p =>
      program.session settings descriptions field member.seat) _ :=
    program.joint_session someone rigid
  apply Cluster.inStep_history someone _ fails schedule
  apply (Together.lockstep joint).imp
  rintro results ⟨reference, -, ⟨logs, found, reports, columns⟩ | ⟨stop, refusal, found⟩⟩
  · refine Or.inr ⟨fun rank => logs (some rank), reports, ?_, ?_⟩
    · funext rank
      exact congrFun found (some rank)
    · intro rank
      exact columns.forall₂ fun _ _ entry => ⟨entry.1 (some rank), entry.2.1⟩
  · refine Or.inl ⟨stop, refusal, ?_⟩
    funext rank
    exact congrFun found (some rank)

/-- Makes calls one after the other, whatever they lead to. -/
def ofCommands (commands : List (Command shape α)) : Program shape α :=
  commands.foldr (fun command program => call command fun _ => program) finished

/-- A step of the triangle with all exchanges; the second opening is refused. -/
def ofTriangle (seat : Seat) : Collective ℚ (Log .triangle ℚ) :=
  session ⟨"triangle", 0, 1 / 10⟩ [Coordinator.triangle] (fun x _ => x)
    (ofCommands [.createComposite, .fill 0 [(0, fun entry => entry)], .preprocess 0 1,
      .preprocess 0 1, .requestInterpolation (1 / 2), .interpolate (1 / 2),
      .advance .forwardEuler 0 1, .setForce 0 1 1, .spread 1, .computeForce 0 0, .postprocess])
    seat

theorem rigid_triangle :
    ∀ description ∈ [Coordinator.triangle], description.nodalVelocity = .rigid .two := by
  intro description member
  rw [List.mem_singleton.mp member]
  rfl

/-- What ranks lead to that make steps in turns. -/
def takeTurns (p turns : Nat) (session : Seat → Collective α (Log shape α)) :
    List (CollectiveEvent α) × Cluster α (Except (Stop α) (Log shape α)) :=
  Cluster.history (fun _ => false) p (fun seat => (session seat).run)
    ((List.range turns).map (· % p))

/-- Two ranks that take turns come to the end of the step. -/
theorem triangle_stays_aligned :
    let reached := takeTurns 2 100 ofTriangle
    reached.2.ranks.map (·.result?.isSome) = [true, true] ∧
      Cluster.InStep (p := 2) AlignedEnds reached.1 reached.2 := by
  intro reached
  refine ⟨by decide +kernel, ?_⟩
  exact stays_aligned (by decide) _ _ rigid_triangle _ _ _ _

/--
In exact arithmetic a cluster refines the serial run of a program, under every
schedule: the ranks report what the serial run reports, and every rank holds its
part of what the serial run holds after the same call.
-/
theorem refines_alone (additive : ExactAddition α) (someone : 0 < p) (settings : Settings α)
    (descriptions : List (StructureDescription shape α))
    (rigid : ∀ description ∈ descriptions, description.nodalVelocity = .rigid shape.dim)
    (field : Vec3 α → α → Vec3 α) (program : Program shape α)
    (fails : Except (Stop α) (Log shape α) → Bool) (schedule : List Nat) :
    let task seat := (program.session settings descriptions field seat).run
    let reached := Cluster.history fails p task schedule
    Cluster.InStep (p := p) (RefinedEnds (Task.alone (task .alone))) reached.1 reached.2 := by
  have joint : Collective.Joint (fun member : Team p =>
      program.session settings descriptions field member.seat) _ :=
    program.joint_session someone rigid
  apply Cluster.inStep_history someone _ fails schedule
  apply (Together.lockstep joint).imp
  rintro results ⟨reference, serial, ended⟩
  have reference_eq := serial additive
  rw [Task.alone_quiet] at reference_eq
  rcases ended with ⟨logs, found, reports, columns⟩ | ⟨stop, refusal, found⟩
  · refine Or.inr ⟨logs none, fun rank => logs (some rank), ?_, ?_, ?_⟩
    · exact reference_eq.symm.trans (congrFun found none)
    · funext rank
      exact congrFun found (some rank)
    · intro rank
      apply columns.forall₂_members
      intro report entries entry
      exact ⟨(entry.1 (some rank)).trans (entry.1 none).symm,
        entry.2.2.partOf additive (some rank)⟩
  · refine Or.inl ⟨stop, ?_, ?_⟩
    · exact reference_eq.symm.trans (congrFun found none)
    · funext rank
      exact congrFun found (some rank)

/-- In the serial run only the second opening fails; two ranks that take turns refine it. -/
theorem triangle_refines_alone :
    let serial := Task.alone (ofTriangle .alone).run
    let reached := takeTurns 2 100 ofTriangle
    (serial.toOption.map (·.map (·.1.outcome.toOption.isSome)) =
        some [true, true, true, false, true, true, true, true, true, true, true] ∧
      reached.2.ranks.map (·.result?.isSome) = [true, true]) ∧
      Cluster.InStep (p := 2) (RefinedEnds serial) reached.1 reached.2 := by
  intro serial reached
  refine ⟨⟨by decide +kernel, by decide +kernel⟩, ?_⟩
  exact refines_alone ⟨Rat.add_assoc, Rat.add_comm, Rat.zero_add⟩ (by decide) _ _ rigid_triangle
    _ _ _ _

end Program

end ImmersedBody
