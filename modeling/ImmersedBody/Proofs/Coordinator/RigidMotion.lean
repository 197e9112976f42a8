import ImmersedBody.Proofs.Rigid.Equivariance
import ImmersedBody.Proofs.Coordinator.Standing
import ImmersedBody.Proofs.Rigid.Placements

/-!
# Structures move rigidly

Whatever is called, every structure stays a rigid image of its reference mesh.
-/

namespace ImmersedBody

open ImmersedBody.Action

variable {shape : Shape} {σ : Type}

/-! ## Turning within the plane -/

namespace Dim.TurnsWithin

variable {dim : Dim}

theorem average {ω ω' : Vec3 ℝ} (turns : dim.TurnsWithin ω) (turns' : dim.TurnsWithin ω') :
    dim.TurnsWithin (ω.average ω') := by
  intro plane
  rcases turns plane with ⟨x, y⟩
  rcases turns' plane with ⟨x', y'⟩
  simp [Vec3.average, x, y, x', y']

/-- A generalized velocity has no other angular components than the dimension allows. -/
theorem angularPart (dofs : Vector ℝ dim.rigidSize) : dim.TurnsWithin (dim.angularPart dofs) := by
  rintro rfl
  exact ⟨rfl, rfl⟩

end Dim.TurnsWithin

/-- All velocities of a structure that is described turn the plane within itself. -/
structure StructureDescription.TurnsWithin (description : StructureDescription shape ℝ) : Prop where
  initial : shape.dim.TurnsWithin description.initialVelocity.rotational
  prescribed : ∀ velocity, description.motion = .prescribed velocity →
    ∀ time, shape.dim.TurnsWithin (velocity time).rotational

theorem StructureDescription.turnsWithin_turningSquare : turningSquare.TurnsWithin where
  initial := fun _ => ⟨rfl, rfl⟩
  prescribed := nofun

/-- The velocities that a call sets turn the plane within itself. -/
def Coordinator.Call.TurnsWithin : Call shape ℝ → Prop
  | setVelocity _ velocity => shape.dim.TurnsWithin velocity.rotational
  | restore record => ∀ velocity ∈ record.velocities, shape.dim.TurnsWithin velocity.rotational
  -- Generalized velocities have no room for anything else.
  | _ => True

/-! ## Rigid images of the reference mesh -/

/-- Some rigid map has taken every node from its reference place to where it is. -/
def NodalField.PlacesRigidly (field : NodalField ℝ) (layout : FieldLayout)
    (mesh : Mesh shape ℝ) : Prop :=
  ∃ map : RigidMap shape.dim, field.Places layout mesh map.apply

/-- A rigid displacement of a rigid image is one. -/
theorem NodalField.Places.moved {field : NodalField ℝ} {layout : FieldLayout}
    {mesh : Mesh shape ℝ} (map : RigidMap shape.dim) {displacement : RigidDisplacement ℝ}
    (rigid : displacement.IsRigid shape.dim)
    (places : field.Places layout mesh fun x =>
      shape.dim.flatten (displacement.apply (map.apply x))) :
    field.Places layout mesh (map.moved rigid).apply where
  layout_eq := places.layout_eq
  vector_eq := by
    intro node inside
    rw [places.vector_eq node inside, Mesh.place, map.moved_apply]

namespace RigidStructure

/-- A structure that has only moved rigidly since its description, and will go on to do so. -/
structure RidesRigidly (description : StructureDescription shape ℝ)
    (body : RigidStructure shape ℝ) : Prop where
  motion : body.motion = description.motion
  turns : ∀ level, shape.dim.TurnsWithin (body.velocity.get level).rotational
  covers : body.layout.Covers description.mesh
  positions : body.positions.PlacesRigidly body.layout description.mesh
  step : ∀ step, body.step = some step →
    step.halfPositions.PlacesRigidly body.layout description.mesh ∧
      step.newPositions.PlacesRigidly body.layout description.mesh

namespace RidesRigidly

variable {description : StructureDescription shape ℝ} {body : RigidStructure shape ℝ}

theorem of_setUp (within : description.TurnsWithin) {seat : Seat} (serial : seat.size = 1)
    (created : setUp description seat = .ok body) : RidesRigidly description body := by
  rcases places_of_setUp serial created with ⟨covers, placed⟩
  have still : body.positions.PlacesRigidly body.layout description.mesh := by
    refine ⟨.identity shape.dim, placed.layout_eq, fun node inside => ?_⟩
    rw [placed.vector_eq node inside, RigidMap.identity_apply]
  rcases fields_of_setUp created with ⟨-, -, motion, velocity, closed⟩
  exact {
    motion := motion
    turns := by
      intro level
      rw [velocity]
      cases level <;> exact within.initial
    covers := covers
    positions := still
    step := by
      intro step opened
      rw [closed] at opened
      cases opened }

/-- The velocities may change. -/
theorem withVelocities (rides : RidesRigidly description body)
    {velocity : TimeLevels (RigidVelocity ℝ)}
    (turns : ∀ level, shape.dim.TurnsWithin (velocity.get level).rotational) :
    RidesRigidly description { body with velocity } :=
  { rides with turns }

/-- Opening a step evaluates the velocities; the fields of the step start from the current ones. -/
theorem opened (rides : RidesRigidly description body) (within : description.TurnsWithin)
    (window : StepWindow ℝ) : RidesRigidly description (body.opened window) where
  motion := rides.motion
  turns := by
    intro level
    have motion := rides.motion
    simp only [RigidStructure.opened]
    cases source : body.motion with
    | free =>
        cases level <;> exact rides.turns .current
    | prescribed velocity =>
        rw [source] at motion
        cases level <;> exact within.prescribed velocity motion.symm _
  covers := rides.covers
  positions := rides.positions
  step := by
    rintro step ⟨⟩
    exact ⟨rides.positions, rides.positions⟩

/-- Committing a step makes the new positions the current ones. -/
theorem committed (rides : RidesRigidly description body) {step : StepFields ℝ}
    (found : body.step = some step) : RidesRigidly description (body.committed step) where
  motion := rides.motion
  turns := rides.turns
  covers := rides.covers
  positions := (rides.step step found).2
  step := by rintro step ⟨⟩

end RidesRigidly

/-- A structure with a number rides rigidly on the description with this number. -/
def Riding (descriptions : List (StructureDescription shape ℝ)) (part : Nat)
    (body : RigidStructure shape ℝ) : Prop :=
  ∃ description, descriptions[part]? = some description ∧ RidesRigidly description body

variable {descriptions : List (StructureDescription shape ℝ)}

theorem Riding.imp {part : Nat} {body after : RigidStructure shape ℝ}
    (riding : Riding descriptions part body)
    (keeps : ∀ description, RidesRigidly description body → RidesRigidly description after) :
    Riding descriptions part after :=
  Exists.imp (fun description => And.imp_right (keeps description)) riding

theorem ignoresExchange_riding : IgnoresExchange (Riding descriptions) where
  step := by
    intro part body fields fields' opened half new riding
    apply riding.imp
    intro description rides
    refine { rides with step := ?_ }
    rintro _ ⟨⟩
    rw [half, new]
    exact rides.step fields opened
  flow := fun part body _ riding => riding.imp fun description rides => { rides with }

end RigidStructure

namespace Coordinator

open RigidStructure

variable {descriptions : List (StructureDescription shape ℝ)} {settings : Settings ℝ}
  {c : Coordinator shape ℝ}

/-- An update of the positions moves a structure rigidly. -/
theorem ends_advancing_riding (serial : c.seat.size = 1) (rule : AdvanceRule)
    (window : StepWindow ℝ) (part : Nat) (body : RigidStructure shape ℝ)
    (riding : Riding descriptions part body) :
    (advancing c rule window part).Ends body (fun _ after => Riding descriptions part after)
      fun after => Riding descriptions part after := by
  cases opened : body.step with
  | none =>
      apply (ends_advancing_closed opened).imp
      · rintro _ _ rfl
        exact riding
      · rintro _ rfl
        exact riding
  | some step =>
      rcases riding with ⟨description, described, rides⟩
      rcases rides.positions with ⟨map, placed⟩
      rcases rides.step step opened with ⟨half, new⟩
      cases rule with
      | forwardEuler =>
          rcases half with ⟨_, half⟩
          have rigid := RigidDisplacement.about_isRigid body.currentMass.center
            body.velocity.current.translational _ (Scalar.half * window.length)
            (rides.turns .current)
          apply (ends_predict_placed serial opened rides.covers placed half.layout_eq).imp
          · rintro _ _ ⟨halfPositions, halfMass, moved, rfl⟩
            refine ⟨description, described, { rides with step := ?_ }⟩
            rintro _ ⟨⟩
            exact ⟨⟨_, moved.moved map rigid⟩, new⟩
          · rintro _ ⟨halfPositions, moved, -, rfl⟩
            refine ⟨description, described, { rides with step := ?_ }⟩
            rintro _ ⟨⟩
            exact ⟨⟨_, moved.moved map rigid⟩, new⟩
      | midpoint =>
          rcases new with ⟨_, new⟩
          apply (ends_update_placed serial opened rides.covers placed new.layout_eq).imp
          · rintro _ _ ⟨newPositions, moved, rfl⟩
            refine ⟨description, described, { rides with step := ?_ }⟩
            rintro _ ⟨⟩
            have rigid := RigidDisplacement.about_isRigid body.currentMass.center
              body.velocity.half.translational _ window.length (rides.turns .half)
            exact ⟨half, ⟨_, moved.moved map rigid⟩⟩
          · exact fun _ impossible => impossible.elim
      | trapezoidal =>
          exact ⟨description, described, rides⟩

/-- Committing a structure keeps it a rigid image of its reference mesh. -/
theorem ends_commit_riding {objectName : String} {forces : Option (List (NodalField ℝ))}
    {part : Nat} {body : RigidStructure shape ℝ} (riding : Riding descriptions part body) :
    (commit objectName forces part).Ends body (fun _ after => Riding descriptions part after)
      fun after => Riding descriptions part after := by
  cases opened : body.step with
  | none =>
      apply (ends_commit_closed opened).imp
      · exact fun _ _ impossible => impossible.elim
      · rintro _ rfl
        exact riding
  | some step =>
      have committed := riding.imp fun description rides => rides.committed opened
      apply (ends_commit_opened opened).imp
      · rintro _ _ ⟨constraintForce, rfl⟩
        apply committed.imp
        intro description rides
        refine { rides with turns := ?_ }
        intro level
        cases level with
        | current | new =>
            exact rides.turns .new
        | half =>
            exact rides.turns .half
      · rintro _ rfl
        exact committed

/-! ## Calls -/

variable {flow : FlowTransfer ℝ σ}

theorem Call.TurnsWithin.turns_of_gives {call : Call shape ℝ} (within : call.TurnsWithin)
    {part : Nat} {before after : TimeLevels (RigidVelocity ℝ)}
    (gives : call.Gives part before after)
    (turns : ∀ level, shape.dim.TurnsWithin (before.get level).rotational) :
    ∀ level, shape.dim.TurnsWithin (after.get level).rotational := by
  cases call with
  | updateVelocity number dofs =>
      rcases gives with ⟨-, rfl⟩
      intro level
      cases level with
      | current =>
          exact turns .current
      | half =>
          exact (turns .current).average (.angularPart dofs)
      | new =>
          exact .angularPart dofs
  | setVelocity number velocity =>
      rcases gives with ⟨-, rfl⟩
      intro level
      cases level <;> exact within
  | restore record =>
      rcases gives with ⟨velocity, found, rfl⟩
      have turns := within velocity (List.mem_of_getElem? found)
      intro level
      cases level <;> exact turns
  | _ =>
      exact gives.elim

/-- Every call keeps structures rigid images of their reference meshes. -/
theorem Standing.serve_riding
    (standing : c.Standing settings descriptions.length (Riding descriptions))
    (described : ∀ description ∈ descriptions, description.TurnsWithin)
    {call : Call shape ℝ} (within : call.TurnsWithin) (state : σ) :
    (serveAlone flow (c, state) call).1.Standing settings descriptions.length
      (Riding descriptions) := by
  have weighs (part : Nat) (body : RigidStructure shape ℝ) (mass : MassProperties ℝ)
      (riding : Riding descriptions part body) : Riding descriptions part (body.withMass mass) :=
    riding.imp fun description rides => { rides with }
  apply serveAlone_of_ends fun after : Coordinator shape ℝ × σ =>
    after.1.Standing settings descriptions.length (Riding descriptions)
  by_cases opening : ∃ current new, call = .preprocess current new
  · rcases opening with ⟨current, new, rfl⟩
    rw [Call.serve, ends_first]
    apply (ends_preprocess (fun part body mass riding _ => weighs part body mass riding)
      standing).imp _ fun _ kept => kept.1
    rintro _ after ⟨opened, -⟩
    apply opened.imp
    rintro part _ ⟨_, ⟨body, mass, riding, -, rfl⟩, rfl⟩
    rcases weighs part body mass riding with ⟨description, found, rides⟩
    exact ⟨description, found, rides.opened (described description (List.mem_of_getElem? found)) _⟩
  by_cases closing : call = .postprocess
  · subst closing
    rw [Call.serve, ends_first]
    apply (standing.ends_postprocess fun _ _ _ _ => ends_commit_riding).imp
    · exact fun _ after committed => committed
    · rintro after (rfl | ⟨left, -⟩)
      · exact standing
      · apply left.imp
        rintro part body (riding | riding | riding) <;> exact riding
  · apply (standing.ends_serve_between ignoresExchange_riding
      (fun part body mass riding _ => weighs part body mass riding)
      (fun rule window _ => ends_advancing_riding standing.serial rule window)
      (fun current new same => opening ⟨current, new, same⟩) closing flow state).imp
    · intro _ after kept
      apply (kept _).1
      intro part body velocity gives riding
      exact riding.imp fun description rides =>
        rides.withVelocities (within.turns_of_gives gives rides.turns)
    · exact fun after kept => kept.1

/-- Calls keep structures rigid images of their reference meshes. -/
theorem Standing.run_riding (described : ∀ description ∈ descriptions, description.TurnsWithin)
    {calls : List (Call shape ℝ)} (within : ∀ call ∈ calls, call.TurnsWithin) :
    ∀ {c : Coordinator shape ℝ} (state : σ),
      c.Standing settings descriptions.length (Riding descriptions) →
        (runAlone flow (c, state) calls).1.Standing settings descriptions.length
          (Riding descriptions) := by
  induction calls with
  | nil =>
      exact fun _ standing => standing
  | cons call calls ih =>
      intro c state standing
      have served : (serveAlone flow (c, state) call).1.Standing settings descriptions.length
          (Riding descriptions) :=
        standing.serve_riding described (within call List.mem_cons_self) state
      exact ih (fun other member => within other (List.mem_cons_of_mem call member)) _ served

open StructureDescription in
theorem exists_register_turningSquare :
    ∃ c, (register ⟨"square", 0, 1 / 10⟩ [turningSquare] .alone).alone = .ok c := by
  have checked : Settings.check (⟨"square", 0, 1 / 10⟩ : Settings ℝ) = .ok () := by
    simp [Settings.check, Settings.maximumOrder]
  rw [register, checked]
  exact ⟨_, rfl⟩

end Coordinator

end ImmersedBody
