import ImmersedBody.Coordinator.Basic

/-!
# Opening, advancing and closing a step

Opening a step computes the mass properties from the current positions.  The forward Euler step
predicts the positions and mass properties of the half time, and the midpoint step computes the new
positions.  Closing a step makes the new fields the current ones.
-/

namespace ImmersedBody.Coordinator

variable {α : Type} [Scalar α] {shape : Shape}

/-- Computes the mass properties of all structures from their current positions. -/
def updateMass : Work shape α Unit := do
  let c ← get
  forEachStructure fun part => do
    let body ← get
    let mass ← (Action.collective (body.massAt body.positions c.settings.quadratureOrder)).attempt
      c.name (.computeMass part)
    set (body.withMass mass)

/-- What is told about each structure after its mass properties were computed. -/
def descriptions (c : Coordinator shape α) : List (Notice α) :=
  c.structures.zipIdx.map fun (body, part) =>
    .described c.name part body.partition.nodeCount body.currentMass.volume body.currentMass.center

/-- Computes the mass properties for the first time.  Doing so again has no effect. -/
def prepare : Work shape α Unit := do
  if (← get).initialized then return ()
  else
    updateMass
    Action.tell (← get).descriptions
    modify fun c => { c with initialized := true }

/-- Opens a step from a current to a new time. -/
def preprocess (current new : α) : Work shape α Unit := do
  let firstStep := !(← get).initialized
  prepare
  let window ← attempting .preprocess (committing fun p => p.beginStep current new)
  if !firstStep then updateMass
  modify fun c => { c with structures := c.structures.map (·.opened window) }
  let forces := (← get).structures.map (·.constraintForce)
  let currentForces ← Action.collective (CompositeField.assemble forces)
  modify fun c => { c with currentForces := some currentForces }
  let newForces ← Action.collective (CompositeField.assemble forces)
  modify fun c => { c with newForces := some newForces }

/-- Makes the fields of the step the fields of a structure. -/
def commit (objectName : String) (newForces : Option (List (NodalField α))) (part : Nat) :
    Action α (RigidStructure shape α) Unit := do
  let body ← get
  match body.step with
  | none => Action.refuse (.nothingToCommit objectName part)
  | some step =>
    let body := body.committed step
    set body
    match newForces.bind (·[part]?) with
    | none => pure ()
    | some force =>
      match body.constraintForce.copyFrom force with
      | .ok constraintForce => set { body with constraintForce }
      | .error e => Action.refuse (.field e)
    modify fun body =>
      { body with velocity := { body.velocity with current := body.velocity.new } }

/-- Closes the step and commits its results. -/
def postprocess : Work shape α Unit := do
  let name := (← get).name
  let _ ← attempting .postprocess (committing StepProtocol.endStep)
  let currentForces := (← get).currentForces
  modify fun c => { c with currentForces := none }
  match currentForces with
  | some forces => do let _ ← Action.collective forces.release
  | none => pure ()
  let newForces := (← get).newForces
  modify fun c => { c with newForces := none }
  let released ← match newForces with
    | some forces => some <$> Action.collective forces.release
    | none => pure none
  forEachStructure (commit name released)

/-- Moves the current positions of a structure into the positions of the half time. -/
def predict (seat : Seat) (objectName : String) (order : Nat) (window : StepWindow α) (part : Nat) :
    Action α (RigidStructure shape α) Unit := do
  let body ← get
  let step ← Action.of fun s => .done (stepFields part body, s)
  let time := Scalar.half * window.length
  let displacement := RigidDisplacement.about body.currentMass.center
    body.velocity.current.translational body.velocity.current.rotational time
  Action.part (fun _ => step.halfPositions)
    (fun halfPositions body => { body with step := some { step with halfPositions } })
    (NodalField.displace shape.dim displacement body.positions)
  let body ← get
  let step ← Action.of fun s => .done (stepFields part body, s)
  let halfPositions ← Action.collective (step.halfPositions.close seat)
  let body := { body with step := some { step with halfPositions } }
  set body
  let halfMass ← (Action.collective (body.massAt halfPositions order)).attempt objectName
    (.computeHalfMass part)
  set { body with halfMass }

/-- Moves the current positions of a structure into the positions of the new time. -/
def update (seat : Seat) (window : StepWindow α) (part : Nat) :
    Action α (RigidStructure shape α) Unit := do
  let body ← get
  let step ← Action.of fun s => .done (stepFields part body, s)
  let displacement := RigidDisplacement.about body.currentMass.center
    body.velocity.half.translational body.velocity.half.rotational window.length
  Action.part (fun _ => step.newPositions)
    (fun newPositions body => { body with step := some { step with newPositions } })
    (NodalField.displace shape.dim displacement body.positions)
  let body ← get
  let step ← Action.of fun s => .done (stepFields part body, s)
  let newPositions ← Action.collective (step.newPositions.close seat)
  set { body with step := some { step with newPositions } }

/-- Checks that an update of the positions leads from the current to the new time of the step. -/
def checkTimes (c : Coordinator shape α) (rule : AdvanceRule) (current new : α) :
    Except (Violation α) Unit := do
  let operation := Operation.advancePositions rule
  let window ← c.protocol.check operation
  let check (time : α) (level : TimeLevel) : Except (Violation α) Unit :=
    match window.match? c.settings.timeTolerance time [level] with
    | some _ => .ok ()
    | none => .error (.timeMismatch operation time window)
  check current .current
  check new .new

/--
Advances the positions by a rule.  The forward Euler rule predicts the positions of the half time
with the current rigid velocity, and the midpoint rule computes the new positions with that of the
half time.
-/
def advance (rule : AdvanceRule) (current new : α) : Work shape α Unit := do
  let c ← get
  checking (.advance rule) fun c => c.checkTimes rule current new
  let window ← attempting (.advance rule) (committing fun p => p.advance rule)
  match rule with
  | .forwardEuler =>
    forEachStructure (predict c.seat c.name c.settings.quadratureOrder window)
  | .midpoint => forEachStructure (update c.seat window)
  | .trapezoidal => pure ()
  Action.tell [.advanced c.name rule window]

end ImmersedBody.Coordinator
