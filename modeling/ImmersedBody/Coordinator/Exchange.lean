import ImmersedBody.Coordinator.Basic
import ImmersedBody.Flow.Transfer
import ImmersedBody.Rigid.Force

/-!
# Exchange with the flow and with the constraint solver

The flow provides velocities at the nodes of the structures and takes the constraint forces.  The
constraint solver reads the interpolated velocities, sets the constraint forces, asks for the net
force on a structure, and sets its rigid velocity.  Solver and structures exchange composite fields
with one part per structure.
-/

namespace ImmersedBody.Coordinator

variable {α : Type} [Scalar α] {shape : Shape}

/-! ## Velocities of the flow -/

/-- Requests an interpolation of the velocity of the flow at the half time. -/
def requestInterpolation (time : α) : Work shape α Unit :=
  attempting .requestInterpolation
    (committing fun p => p.requestInterpolation time)

/-- Samples the velocity of the flow onto one structure. -/
def interpolateOnto {σ : Type} (seat : Seat) (objectName : String) (flow : FlowTransfer α σ)
    (level : TimeLevel) (time : α) (part : Nat) : Action α (RigidStructure shape α × σ) Unit := do
  let (body, _) ← get
  let step ← Action.of fun s => .done (stepFields part body, s)
  let sampled := Action.part
    (fun (body, shared) => (body.flowVelocityAt step level, shared))
    (fun (velocity, shared) (body, _) => (body.withFlowVelocity step level velocity, shared))
    (flow.interpolate part (body.positionsAt step level) time)
  sampled.attempt objectName (.interpolateOnto part)
  let (body, shared) ← get
  let step ← Action.of fun s => .done (stepFields part body, s)
  let velocity ← Action.collective ((body.flowVelocityAt step level).close seat)
  set (body.withFlowVelocity step level velocity, shared)

/--
Samples the velocity of the flow at one of the times of the step onto all structures, if it was
requested.
-/
def interpolate {σ : Type} (flow : FlowTransfer α σ) (time : α) :
    Action α (Coordinator shape α × σ) Unit := do
  let (c, _) ← get
  let level ← Action.first <| checking .interpolate fun c => do
    let window ← c.protocol.check .interpolateVelocity
    c.levelOf .interpolateVelocity window time
  if ← Action.first (attempting .interpolate (committing StepProtocol.consumeRequest)) then
    forStructures (interpolateOnto c.seat c.name flow level time)

/-- Copies the half-time velocities of structures into the parts of a composite, times a factor. -/
def copyVelocities (factor : α) :
    (part : Nat) → List (RigidStructure shape α) → List (NodalField α) →
      Except (Stop α) Unit × List (NodalField α)
  | part, body :: bodies, target :: targets =>
    match stepFields part body with
    | .error stop => (.error stop, target :: targets)
    | .ok step =>
      match target.copyFrom step.halfVelocity with
      | .error e => (.error (.because (.field e)), target :: targets)
      | .ok copied =>
        let (outcome, rest) := copyVelocities factor (part + 1) bodies targets
        (outcome, copied.scale factor :: rest)
  | _, _, targets => (.ok (), targets)

/-- Reads the half-time velocities of all structures, times a factor, into a composite. -/
def readVelocities (c : Coordinator shape α) (time factor : α) :
    EStateM (Stop α) (CompositeField α) Unit := fun composite =>
  match (do c.protocol.queryVelocity time; c.checkParts composite) with
  | .error v => .error (.within c.name .getVelocity (.because (.violation v))) composite
  | .ok () =>
    match copyVelocities factor 0 c.structures composite.parts with
    | (.ok (), parts) => .ok () ⟨parts⟩
    | (.error stop, parts) => .error stop ⟨parts⟩

/-! ## Constraint forces -/

/-- Tells that there is no Lagrangian force to compute. -/
def skipForce (time : α) : Work shape α Unit := do
  Action.tell [.skippedForce (← get).name time]

/-- Refuses a composite with a part that does not have the layout of its structure. -/
def matchForces (objectName : String) :
    (part : Nat) → List (RigidStructure shape α) → List (NodalField α) → Except (Stop α) Unit
  | part, body :: bodies, force :: forces => do
    let step ← stepFields part body
    if step.halfForce.compatible force then matchForces objectName (part + 1) bodies forces
    else
      .error (.within objectName (.matchForce part) (.because (.field .incompatibleLayouts)))
  | _, _, _ => .ok ()

/-- Stores a force, times a factor, as the half-time force of a structure. -/
def storeForce (seat : Seat) (composite : CompositeField α) (factor : α) (part : Nat) :
    Action α (RigidStructure shape α) Unit := do
  match composite.parts[part]? with
  | none => pure ()
  | some source =>
    let body ← get
    let step ← Action.of fun s => .done (stepFields part body, s)
    match step.halfForce.copyFrom source with
    | .error e => Action.refuse (.field e)
    | .ok copied =>
      let halfForce := copied.scale factor
      set { body with step := some { step with halfForce } }
      let halfForce ← Action.collective (halfForce.close seat)
      set { body with step := some { step with halfForce } }

/--
Stores the constraint forces, times a factor, at the half time of all structures, to be spread
later.  The time has to be the current or the new one.
-/
def setForce (composite : CompositeField α) (time factor : α) : Work shape α Unit := do
  let c ← get
  let _ ← checking .setForce fun c => do
    c.checkParts composite
    c.protocol.checkForce time
  Action.of fun c' => .done (matchForces c.name 0 c.structures composite.parts, c')
  forEachStructure (storeForce c.seat composite factor)
  let _ ← attempting .setForce (committing fun p => p.produceForce time)

/-- The composite constraint forces at a level of the step. -/
def forcesAt (c : Coordinator shape α) : TimeLevel → Option (CompositeField α)
  | .current => c.currentForces
  | .new => c.newForces
  | .half => none

/-- The coordinator with other composite constraint forces at a level of the step. -/
def withForcesAt (c : Coordinator shape α) (level : TimeLevel) (forces : CompositeField α) :
    Coordinator shape α :=
  match level with
  | .current => { c with currentForces := some forces }
  | .new => { c with newForces := some forces }
  | .half => c

/--
Hands out the composite constraint forces at the current or the new time, to be changed by the
caller.  At any other time there are none, which is told.
-/
def changeForces (time : α) (change : CompositeField α → CompositeField α) :
    Work shape α (Option (CompositeField α)) := do
  let c ← get
  match ← checking .getForce fun c => c.protocol.queryForce time with
  | none =>
    Action.tell [.unmatchedForceTime c.name time]
    return none
  | some level =>
    match c.forcesAt level with
    | none => Action.refuse (.forcesNotAllocated c.name)
    | some forces =>
      let changed := change forces
      set (c.withForcesAt level changed)
      return some changed

/-- Works on the structure with a number. -/
def onStructure {β : Type} (part : Nat) (action : Action α (RigidStructure shape α) β) :
    Work shape α (Option β) :=
  Action.of fun c =>
    match c.structures[part]? with
    | none => .done (.ok none, c)
    | some body => (action.on body).bind fun (outcome, body) =>
      .done (outcome.map some, { c with structures := c.structures.set part body })

/-- Stores a force as the half-time force of a structure and integrates it. -/
def integrateForce (seat : Seat) (objectName : String) (order part : Nat) (force : NodalField α) :
    Action α (RigidStructure shape α) (Vector α shape.dim.rigidSize) := do
  let body ← get
  let step ← Action.of fun s => .done (stepFields part body, s)
  match step.halfForce.copyFrom force with
  | .error e => (Action.refuse (.field e)).attempt objectName (.matchForce part)
  | .ok halfForce =>
    set { body with step := some { step with halfForce } }
    let halfForce ← Action.collective (halfForce.close seat)
    set { body with step := some { step with halfForce } }
    (Action.collective (generalizedForce body.mesh body.mesh body.partition.cells
      step.halfPositions halfForce body.halfMass.center (shape.rule order))).attempt objectName
      (.integrateForce part)

/-- The net force and torque of a force on a structure, about the half-time center of mass. -/
def computeForce (part : Nat) (force : NodalField α) :
    Work shape α (Option (Vector α shape.dim.rigidSize)) := do
  let c ← get
  let _ ← checking .computeForce fun c => do
    c.checkPart part
    c.protocol.check .computeForce
  let total ← onStructure part
    (integrateForce c.seat c.name c.settings.quadratureOrder part force)
  let _ ← committing fun p => p.record .computeForce
  return total

/-- Spreads the half-time force of one structure. -/
def spreadFrom {σ : Type} (objectName : String) (flow : FlowTransfer α σ) (level : TimeLevel)
    (time : α) (part : Nat) : Action α (RigidStructure shape α × σ) Unit := do
  let (body, _) ← get
  let step ← Action.of fun s => .done (stepFields part body, s)
  let spread := Action.part (fun (_, shared) => shared) (fun shared (body, _) => (body, shared))
    (flow.spread part (body.positionsAt step level) step.halfForce time)
  spread.attempt objectName (.spreadFrom part)

/--
Spreads the constraint forces of all structures onto the flow, if some were set since the last
time.
-/
def spread {σ : Type} (flow : FlowTransfer α σ) (time : α) :
    Action α (Coordinator shape α × σ) Unit := do
  let (c, _) ← get
  let level ← Action.first <| checking .spread fun c =>
    match c.protocol.window with
    | some window => c.levelOf .spreadForce window time
    | none => .error (.notInStep .spreadForce)
  if ← Action.first (attempting .spread (committing StepProtocol.consumeForce)) then
    forStructures (spreadFrom c.name flow level time)

/-! ## Rigid velocities -/

/-- Expands a rigid velocity into the constrained velocity of a structure at the half time. -/
def expandVelocity (seat : Seat) (objectName : String) (part : Nat) (velocity : RigidVelocity α)
    (time : α) : Action α (RigidStructure shape α) (NodalField α) := do
  let body ← get
  let step ← Action.of fun s => .done (stepFields part body, s)
  let expanded := Action.part (fun _ => step.constrainedVelocity)
    (fun constrainedVelocity (body : RigidStructure shape α) =>
      { body with step := some { step with constrainedVelocity } })
    (body.nodalVelocity velocity step.halfPositions body.halfMass.center time)
  expanded.attempt objectName (.evaluateVelocity part)
  let body ← get
  let step ← Action.of fun s => .done (stepFields part body, s)
  let constrainedVelocity ← Action.collective (step.constrainedVelocity.close seat)
  set { body with step := some { step with constrainedVelocity } }
  return constrainedVelocity

/--
Expands the generalized velocity of a structure into its constrained nodal velocity and copies it
into the part of a composite.  The composite is part of the state.
-/
def setBodyVelocity (part : Nat) (dofs : Vector α shape.dim.rigidSize) :
    Action α (Coordinator shape α × CompositeField α) Unit :=
  Action.of fun (c, composite) =>
    let work : Work shape α (Option (NodalField α)) := do
      let window ← checking .setBodyVelocity fun c => do
        c.checkPart part
        c.checkParts composite
        c.protocol.check .setVelocity
      onStructure part
        (expandVelocity c.seat c.name part (.ofDofs shape.dim dofs) window.new)
    (work.on c).bind fun
    | (.error stop, c) => .done (.error stop, c, composite)
    | (.ok expanded, c) =>
      match expanded, composite.parts[part]? with
      | some velocity, some target =>
        match target.copyFrom velocity with
        | .error e => .done (.error (.because (.field e)), c, composite)
        | .ok copied =>
          let record : Work shape α (StepWindow α) :=
            committing fun p => p.record .setVelocity
          (record.on c).bind fun (outcome, c) =>
            .done (outcome.map fun _ => (), c, composite.setPart part copied)
      | _, _ =>
        .done (.error (.because (.violation (.structureOutOfRange part c.count))), c, composite)

/-- Changes the structure with a number. -/
def changeStructure (part : Nat) (change : RigidStructure shape α → RigidStructure shape α) :
    Work shape α Unit :=
  modify fun c => { c with structures := c.structures.modify part change }

/-- Refuses to set the velocity of a structure whose velocity is prescribed. -/
def checkFree (part : Nat) (c : Coordinator shape α) : Except (Violation α) Unit :=
  match c.structures[part]? with
  | some body => if body.motion.isPrescribed then .error (.prescribedVelocity part) else .ok ()
  | none => .ok ()

/--
Sets the new rigid velocity of a free structure during a step.  The velocity of the half time
becomes the mean of the current and the new one.
-/
def updateVelocity (part : Nat) (dofs : Vector α shape.dim.rigidSize) : Work shape α Unit := do
  checking .updateVelocity fun c => do
    c.checkPart part
    if c.protocol.window.isNone then .error (.notInStep .setVelocity) else .ok ()
    c.checkFree part
  let new := RigidVelocity.ofDofs shape.dim dofs
  changeStructure part fun body =>
    { body with
      velocity := ⟨body.velocity.current, body.velocity.current.average new, new⟩ }

/-- Sets the rigid velocity of a free structure between steps. -/
def setVelocity (part : Nat) (velocity : RigidVelocity α) : Work shape α Unit := do
  checking .setVelocity (checkPart part)
  let c ← get
  if c.protocol.phase.inStep then
    Action.refuse (.velocityFixed c.name part)
  else
    checking .setVelocity (checkFree part)
    changeStructure part (·.withVelocity velocity)

/-! ## Restart records -/

/-- A record of the current rigid velocities of all structures. -/
def restartRecord (c : Coordinator shape α) : RestartRecord α :=
  .current c.name (c.structures.map (·.velocity.current))

/-- Takes back the rigid velocities of a record, between steps. -/
def restore (record : RestartRecord α) : Work shape α Unit := do
  let c ← get
  if c.protocol.phase.inStep then
    Action.refuse (.restoreDuringStep c.name)
  else
    match record.checkCompatible c.name c.count with
    | .error e => (Action.refuse (.restart e)).attempt c.name .restore
    | .ok () =>
      modify fun c =>
        { c with structures := List.zipWith (·.withVelocity ·) c.structures record.velocities }
      Action.tell [.restored c.name c.count]

end ImmersedBody.Coordinator
