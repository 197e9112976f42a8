import ImmersedBody.Proofs.Coordinator.Calls
import ImmersedBody.Proofs.Coordinator.Prospects
import ImmersedBody.Proofs.Coordinator.Safety

/-!
# What calls do to the rigid velocities

A `Drive` is the source of the rigid velocity of a structure, together with its values
at the three times of a step.  Only five calls touch the drives: opening and closing a
step, and the three calls that set velocities.  `ensures_serve` says what every call
makes of them on any number of ranks, whatever else happens.
-/

namespace ImmersedBody

open ImmersedBody.Action

variable {α σ : Type} {shape : Shape}

/-- The source of a rigid velocity, and its values at the three times of a step. -/
structure Drive (α : Type) where
  motion : BodyMotion α
  velocity : TimeLevels (RigidVelocity α)

namespace Drive

/-- At the opening of a step a prescribed velocity is evaluated; a free structure keeps its own. -/
def opened (drive : Drive α) (window : StepWindow α) : Drive α :=
  { drive with
    velocity := match drive.motion with
      | .prescribed velocity => ⟨velocity window.current, velocity window.half, velocity window.new⟩
      | .free => .uniform drive.velocity.current }

/-- At the end of a step the new velocity becomes the current one. -/
def committed (drive : Drive α) : Drive α :=
  { drive with velocity := { drive.velocity with current := drive.velocity.new } }

/-- A new velocity during a step, and its mean with the current one at the half time. -/
def updated [Scalar α] (drive : Drive α) (new : RigidVelocity α) : Drive α :=
  { drive with velocity := ⟨drive.velocity.current, drive.velocity.current.average new, new⟩ }

/-- One velocity at all times. -/
def withVelocity (drive : Drive α) (velocity : RigidVelocity α) : Drive α :=
  { drive with velocity := .uniform velocity }

end Drive

namespace RigidStructure

/-- The source of the rigid velocity of a structure, and its values. -/
def drive (body : RigidStructure shape α) : Drive α :=
  ⟨body.motion, body.velocity⟩

@[simp]
theorem drive_withFlowVelocity (body : RigidStructure shape α) (step : StepFields α)
    (level : TimeLevel) (velocity : NodalField α) :
    (body.withFlowVelocity step level velocity).drive = body.drive := by
  cases level <;> rfl

theorem drive_opened [Scalar α] (body : RigidStructure shape α) (window : StepWindow α) :
    (body.opened window).drive = body.drive.opened window :=
  rfl

end RigidStructure

namespace Coordinator

/-- The sources of the rigid velocities of all structures, and their values. -/
def drives (c : Coordinator shape α) : List (Drive α) :=
  c.structures.map (·.drive)

/-- The structures have the given sources and values of their rigid velocities. -/
def DrivenBy (drives : List (Drive α)) (c : Coordinator shape α) : Prop :=
  Labelled (fun drive body => drive = body.drive) drives c

theorem drivenBy_iff {drives : List (Drive α)} {c : Coordinator shape α} :
    c.DrivenBy drives ↔ c.drives = drives := by
  rw [eq_comm, Coordinator.drives, ← List.forall₂_eq_eq_eq, List.forall₂_map_right_iff]
  rfl

section

variable [Scalar α] {c : Coordinator shape α} {drive : Drive α} {drives : List (Drive α)}
  {seat : Seat} {objectName : String} {order part : Nat} {window : StepWindow α}

theorem upholds_updateMass : Upholds (DrivenBy drives) (updateMass : Work shape α Unit) := by
  rw [updateMass]
  apply upholds_get_bind
  intro c _
  apply upholds_forEachStructure
  intro part drive
  apply upholds_get_bind
  intro body driven
  apply upholds_bind (upholds_attempt (upholds_collective _))
  exact fun mass => upholds_set driven

theorem upholds_prepare : Upholds (DrivenBy drives) (prepare : Work shape α Unit) := by
  rw [prepare]
  apply upholds_get_bind
  intro c _
  split
  · exact upholds_pure ()
  · apply upholds_bind upholds_updateMass
    intro _
    apply upholds_get_bind
    intro c _
    apply upholds_bind (upholds_tell _)
    exact fun _ => upholds_modify fun _ driven => driven

theorem upholds_predict :
    Upholds (fun body => drive = body.drive)
      (predict seat objectName order window part : Action α (RigidStructure shape α) Unit) := by
  rw [predict]
  apply upholds_get_bind
  intro body _
  apply upholds_bind (upholds_known _)
  intro step
  refine upholds_bind (upholds_part ?_) fun _ => ?_
  · exact fun _ _ driven => driven
  apply upholds_get_bind
  intro body driven
  apply upholds_bind (upholds_known _)
  intro step
  apply upholds_bind (upholds_collective _)
  intro halfPositions
  refine upholds_bind (upholds_set ?_) fun _ => ?_
  · exact driven
  apply upholds_bind (upholds_attempt (upholds_collective _))
  exact fun mass => upholds_set driven

theorem upholds_update :
    Upholds (fun body => drive = body.drive)
      (update seat window part : Action α (RigidStructure shape α) Unit) := by
  rw [update]
  apply upholds_get_bind
  intro body _
  apply upholds_bind (upholds_known _)
  intro step
  refine upholds_bind (upholds_part ?_) fun _ => ?_
  · exact fun _ _ driven => driven
  apply upholds_get_bind
  intro body driven
  apply upholds_bind (upholds_known _)
  intro step
  apply upholds_bind (upholds_collective _)
  exact fun newPositions => upholds_set driven

theorem upholds_advance {rule : AdvanceRule} {current new : α} :
    Upholds (DrivenBy drives) (advance rule current new : Work shape α Unit) := by
  rw [advance]
  apply upholds_get_bind
  intro c _
  apply upholds_bind upholds_checking
  intro _
  apply upholds_bind (upholds_attempting upholds_committing)
  intro window
  cases rule with
  | forwardEuler =>
      exact upholds_bind (upholds_forEachStructure fun _ _ => upholds_predict) fun _ =>
        upholds_tell _
  | midpoint =>
      exact upholds_bind (upholds_forEachStructure fun _ _ => upholds_update) fun _ =>
        upholds_tell _
  | trapezoidal =>
      exact upholds_tell _

theorem upholds_interpolateOnto {flow : FlowTransfer α σ} {level : TimeLevel} {time : α} :
    Upholds (fun state => drive = state.1.drive)
      (interpolateOnto seat objectName flow level time part :
        Action α (RigidStructure shape α × σ) Unit) := by
  rw [interpolateOnto]
  apply upholds_get_bind
  rintro ⟨body, shared⟩ _
  apply upholds_bind (upholds_known _)
  intro step
  apply upholds_bind
  · apply upholds_attempt (upholds_part _)
    rintro ⟨velocity, shared⟩ ⟨body, _⟩ driven
    exact driven.trans (body.drive_withFlowVelocity ..).symm
  · intro _
    apply upholds_get_bind
    rintro ⟨body, shared⟩ driven
    apply upholds_bind (upholds_known _)
    intro step
    apply upholds_bind (upholds_collective _)
    exact fun velocity => upholds_set (driven.trans (body.drive_withFlowVelocity ..).symm)

theorem upholds_interpolate {flow : FlowTransfer α σ} {time : α} :
    Upholds (fun state => state.1.DrivenBy drives)
      (interpolate flow time : Action α (Coordinator shape α × σ) Unit) := by
  rw [interpolate_eq_onDemand]
  exact upholds_onDemand fun _ _ _ _ => upholds_interpolateOnto

omit [Scalar α] in
theorem upholds_spreadFrom {flow : FlowTransfer α σ} {level : TimeLevel} {time : α} :
    Upholds (fun state => drive = state.1.drive)
      (spreadFrom objectName flow level time part :
        Action α (RigidStructure shape α × σ) Unit) := by
  rw [spreadFrom]
  apply upholds_get_bind
  rintro ⟨body, _⟩ _
  apply upholds_bind (upholds_known _)
  intro step
  apply upholds_attempt (upholds_part _)
  exact fun _ _ driven => driven

theorem upholds_spread {flow : FlowTransfer α σ} {time : α} :
    Upholds (fun state => state.1.DrivenBy drives)
      (spread flow time : Action α (Coordinator shape α × σ) Unit) := by
  rw [spread_eq_onDemand]
  exact upholds_onDemand fun _ _ _ _ => upholds_spreadFrom

theorem upholds_storeForce {composite : CompositeField α} {factor : α} :
    Upholds (fun body => drive = body.drive)
      (storeForce seat composite factor part : Action α (RigidStructure shape α) Unit) := by
  rw [storeForce]
  split
  · exact upholds_pure ()
  · apply upholds_get_bind
    intro body driven
    apply upholds_bind (upholds_known _)
    intro step
    split
    · exact upholds_refuse _
    · refine upholds_bind (upholds_set ?_) fun _ => ?_
      · exact driven
      apply upholds_bind (upholds_collective _)
      exact fun halfForce => upholds_set driven

theorem upholds_setForce {composite : CompositeField α} {time factor : α} :
    Upholds (DrivenBy drives) (setForce composite time factor : Work shape α Unit) := by
  rw [setForce]
  apply upholds_get_bind
  intro c _
  apply upholds_bind upholds_checking
  intro level
  apply upholds_bind (upholds_known _)
  intro _
  apply upholds_bind (upholds_forEachStructure fun _ _ => upholds_storeForce)
  intro _
  exact upholds_bind (upholds_attempting upholds_committing) fun _ => upholds_pure ()

theorem upholds_integrateForce {force : NodalField α} :
    Upholds (fun body => drive = body.drive)
      (integrateForce seat objectName order part force :
        Action α (RigidStructure shape α) (Vector α shape.dim.rigidSize)) := by
  rw [integrateForce]
  apply upholds_get_bind
  intro body driven
  apply upholds_bind (upholds_known _)
  intro step
  split
  · exact upholds_attempt (upholds_refuse _)
  · refine upholds_bind (upholds_set ?_) fun _ => ?_
    · exact driven
    apply upholds_bind (upholds_collective _)
    intro halfForce
    refine upholds_bind (upholds_set ?_) fun _ => upholds_attempt (upholds_collective _)
    exact driven

theorem upholds_computeForce {force : NodalField α} :
    Upholds (DrivenBy drives)
      (computeForce part force : Work shape α (Option (Vector α shape.dim.rigidSize))) := by
  rw [computeForce]
  apply upholds_get_bind
  intro c _
  apply upholds_bind upholds_checking
  intro _
  apply upholds_bind (upholds_onStructure fun _ => upholds_integrateForce)
  intro total
  exact upholds_bind upholds_committing fun _ => upholds_pure total

theorem upholds_changeForces {time : α} {change : CompositeField α → CompositeField α} :
    Upholds (DrivenBy drives) (changeForces time change : Work shape α _) := by
  rw [changeForces]
  apply upholds_get_bind
  intro c driven
  apply upholds_bind upholds_checking
  intro found
  split
  · exact upholds_bind (upholds_tell _) fun _ => upholds_pure none
  next level =>
    split
    · exact upholds_refuse _
    · apply upholds_bind (upholds_set _) fun _ => upholds_pure _
      cases level <;> exact driven

theorem upholds_expandVelocity {velocity : RigidVelocity α} {time : α} :
    Upholds (fun body => drive = body.drive)
      (expandVelocity seat objectName part velocity time :
        Action α (RigidStructure shape α) (NodalField α)) := by
  rw [expandVelocity]
  apply upholds_get_bind
  intro body _
  apply upholds_bind (upholds_known _)
  intro step
  refine upholds_bind (upholds_attempt (upholds_part ?_)) fun _ => ?_
  · exact fun _ _ driven => driven
  apply upholds_get_bind
  intro body driven
  apply upholds_bind (upholds_known _)
  intro step
  apply upholds_bind (upholds_collective _)
  intro expanded
  refine upholds_bind (upholds_set ?_) fun _ => upholds_pure expanded
  exact driven

theorem upholds_setBodyVelocity {dofs : Vector α shape.dim.rigidSize} :
    Upholds (fun state => state.1.DrivenBy drives)
      (setBodyVelocity part dofs : Action α (Coordinator shape α × CompositeField α) Unit) := by
  rintro ⟨c, composite⟩ before
  have evaluates : Upholds (DrivenBy drives) (do
      let window ← checking .setBodyVelocity fun c => do
        c.checkPart part
        c.checkParts composite
        c.protocol.check .setVelocity
      onStructure part (expandVelocity c.seat c.name part (.ofDofs shape.dim dofs) window.new) :
        Work shape α (Option (NodalField α))) :=
    upholds_bind upholds_checking fun _ => upholds_onStructure fun _ => upholds_expandVelocity
  rw [setBodyVelocity, ensures_of, Task.always_bind]
  apply Task.Always.imp (evaluates c before)
  rintro ⟨stop | expanded, after⟩ driven
  · exact driven
  · cases expanded with
    | none =>
        exact driven
    | some velocity =>
        cases composite.parts[part]? with
        | none =>
            exact driven
        | some target =>
            simp only
            cases target.copyFrom velocity with
            | error refused =>
                exact driven
            | ok copied =>
                have records : Upholds (DrivenBy drives)
                    (committing fun p => p.record .setVelocity : Work shape α (StepWindow α)) :=
                  upholds_committing
                rw [Task.always_bind]
                apply Task.Always.imp (records after driven)
                rintro ⟨stop | _, after⟩ driven <;> exact driven

/-! ## What calls do to the rigid velocities -/

/-- The structures that a call addresses exist. -/
def Call.Addresses (count : Nat) : Call shape α → Prop
  | updateVelocity part _ | setVelocity part _ => part < count
  | restore record => record.velocities.length = count
  | _ => True

/-- What drives the structures after a call that succeeds. -/
def Call.driven (drives : List (Drive α)) : Call shape α → List (Drive α)
  | preprocess current new => drives.map (·.opened (.between current new))
  | postprocess => drives.map (·.committed)
  | updateVelocity part dofs => drives.modify part (·.updated (.ofDofs shape.dim dofs))
  | setVelocity part velocity => drives.modify part (·.withVelocity velocity)
  | restore record => List.zipWith (·.withVelocity ·) drives record.velocities
  | _ => drives

omit [Scalar α] in
theorem ensures_commit {newForces : Option (List (NodalField α))} {body : RigidStructure shape α} :
    (commit objectName newForces part).Ensures body
      (fun _ after => body.drive.committed = after.drive)
      fun after => body.drive = after.drive := by
  rw [commit]
  simp only [ensures_bind, ensures_get]
  cases body.step with
  | none =>
      rfl
  | some step =>
      simp only [ensures_bind, ensures_set]
      cases newForces.bind (·[part]?) with
      | none =>
          rfl
      | some force =>
          simp only
          cases (body.committed step).constraintForce.copyFrom force <;> rfl

/-- Opening a step that stops has opened all structures or none. -/
theorem ensures_preprocess {current new : α} (driven : c.DrivenBy drives) :
    (preprocess current new : Work shape α Unit).Ensures c
      (fun _ after => after.drives = drives.map (·.opened (.between current new)))
      fun after => after.drives = drives ∨
        after.drives = drives.map (·.opened (.between current new)) := by
  have unchanged (after : Coordinator shape α) (driven : after.DrivenBy drives) :
      after.drives = drives ∨ after.drives = drives.map (·.opened (.between current new)) :=
    Or.inl (drivenBy_iff.mp driven)
  -- Nothing that comes after the structures were opened touches them.
  have opens {structures : List (RigidStructure shape α)}
      (driven : structures.map (·.drive) = drives) :
      (structures.map (·.opened (.between current new))).map (·.drive) =
        drives.map (·.opened (.between current new)) := by
    rw [← driven, List.map_map, List.map_map]
    exact List.map_congr_left fun body _ => body.drive_opened _
  rw [preprocess, ensures_bind, ensures_get]
  apply upholds_prepare.ensures_bind driven _ unchanged
  intro _ prepared driven
  simp only [ensures_bind, ensures_attempting, ensures_committing]
  cases begun : prepared.protocol.beginStep current new with
  | error violation =>
      exact unchanged prepared driven
  | ok outcome =>
      rcases StepProtocol.beginStep_eq_ok_iff.mp begun with ⟨next, -, rfl⟩
      simp only
      split
      · refine upholds_updateMass.ensures_bind ?_ (fun _ weighed driven => ?_) unchanged
        · exact driven
        have opened := opens (drivenBy_iff.mp driven)
        simp only [ensures_bind, ensures_modify, ensures_get, ensures_collective]
        exact Collective.always_of_forall
          (fun _ => Collective.always_of_forall (fun _ => opened) (Or.inr opened)) (Or.inr opened)
      · have opened := opens (drivenBy_iff.mp driven)
        simp only [ensures_bind, ensures_modify, ensures_get, ensures_collective]
        exact Collective.always_of_forall
          (fun _ => Collective.always_of_forall (fun _ => opened) (Or.inr opened)) (Or.inr opened)

/-- Each structure has been moved on to its next drive, or not. -/
def Between (drives next : List (Drive α)) (c : Coordinator shape α) : Prop :=
  ∀ part : Nat, c.drives[part]? = drives[part]? ∨ c.drives[part]? = next[part]?

omit [Scalar α] in
theorem between_of_forall₂ {change : Drive α → Drive α}
    (each : List.Forall₂ (fun drive body => drive = body.drive ∨ change drive = body.drive) drives
      c.structures) : c.Between drives (drives.map change) := by
  rcases List.forall₂_iff_get.mp each with ⟨length_eq, each⟩
  intro part
  rw [Coordinator.drives, List.getElem?_map, List.getElem?_map]
  by_cases inside : part < drives.length
  · have here := each part inside (length_eq ▸ inside)
    rw [List.getElem?_eq_getElem inside, List.getElem?_eq_getElem (length_eq ▸ inside)]
    exact here.imp (fun same => congrArg some same.symm) fun same => congrArg some same.symm
  · rw [List.getElem?_eq_none (not_lt.mp inside),
      List.getElem?_eq_none (length_eq ▸ not_lt.mp inside)]
    exact Or.inl rfl

omit [Scalar α] in
/-- Closing a step that stops has committed the velocities of some of the structures. -/
theorem ensures_postprocess (driven : c.DrivenBy drives) :
    (postprocess : Work shape α Unit).Ensures c
      (fun _ after => after.drives = drives.map (·.committed))
      fun after => after.Between drives (drives.map (·.committed)) := by
  have unchanged (after : Coordinator shape α) (driven : after.DrivenBy drives) :
      after.Between drives (drives.map (·.committed)) :=
    fun _ => Or.inl (by rw [drivenBy_iff.mp driven])
  have commits (objectName : String) (newForces : Option (List (NodalField α)))
      (before : Coordinator shape α) (driven : before.DrivenBy drives) :
      (forEachStructure (commit objectName newForces)).Ensures before
        (fun _ after => after.drives = drives.map (·.committed))
        fun after => after.Between drives (drives.map (·.committed)) := by
    have each (part : Nat) (drive : Drive α) (body : RigidStructure shape α)
        (same : drive = body.drive) : (commit objectName newForces part).Ensures body
          (fun _ after => drive.committed = after.drive) fun after => drive = after.drive := by
      rw [same]
      exact ensures_commit
    apply (ensures_forEachStructure each driven).imp
    · rintro _ _ ⟨structures, all, rfl⟩
      rw [eq_comm, Coordinator.drives, ← List.forall₂_eq_eq_eq, List.forall₂_map_right_iff,
        List.forall₂_map_left_iff]
      exact all
    · rintro _ ⟨structures, all, rfl⟩
      exact between_of_forall₂ (all.imp fun _ _ kept => kept.elim Or.inr (Or.elim · Or.inl Or.inl))
  rw [postprocess, ensures_bind, ensures_get]
  apply (upholds_attempting upholds_committing).ensures_bind driven _ unchanged
  intro _ closed driven
  simp only [ensures_bind, ensures_get, ensures_modify]
  cases closed.currentForces with
  | none =>
      cases closed.newForces with
      | none =>
          exact commits _ _ _ driven
      | some newForces =>
          simp only [ensures_bind, ensures_get, ensures_modify, ensures_map, ensures_collective]
          exact Collective.always_of_forall (fun _ => commits _ _ _ driven) (unchanged _ driven)
  | some currentForces =>
      simp only [ensures_bind, ensures_get, ensures_modify, ensures_collective]
      apply Collective.always_of_forall _ (unchanged _ driven)
      intro _
      cases closed.newForces with
      | none =>
          exact commits _ _ _ driven
      | some newForces =>
          simp only [ensures_bind, ensures_map, ensures_collective]
          exact Collective.always_of_forall (fun _ => commits _ _ _ driven) (unchanged _ driven)

omit [Scalar α] in
theorem drives_changeStructure {part : Nat}
    {change : RigidStructure shape α → RigidStructure shape α}
    {next : Drive α → Drive α} (changes : ∀ body, (change body).drive = next body.drive) :
    ({ c with structures := c.structures.modify part change } : Coordinator shape α).drives =
      c.drives.modify part next := by
  rw [Coordinator.drives, Coordinator.drives]
  apply List.ext_getElem?
  intro i
  rw [List.getElem?_map, List.getElem?_modify, List.getElem?_modify, List.getElem?_map]
  cases c.structures[i]? with
  | none =>
      rfl
  | some body =>
      by_cases here : part = i <;> simp [here, changes]

theorem ensures_updateVelocity {dofs : Vector α shape.dim.rigidSize} :
    (updateVelocity part dofs : Work shape α Unit).Ensures c
      (fun _ after => part < c.structures.length ∧
        after.drives = c.drives.modify part (·.updated (.ofDofs shape.dim dofs)))
      fun after => after = c := by
  rw [updateVelocity]
  simp only [ensures_bind, ensures_checking]
  split
  next checked =>
    rcases bind_eq_ok_iff.mp checked with ⟨_, inside, -⟩
    exact ⟨checkPart_eq_ok_iff.mp inside, drives_changeStructure fun _ => rfl⟩
  next => trivial

omit [Scalar α] in
theorem ensures_setVelocity {velocity : RigidVelocity α} :
    (setVelocity part velocity : Work shape α Unit).Ensures c
      (fun _ after => part < c.structures.length ∧
        after.drives = c.drives.modify part (·.withVelocity velocity))
      fun after => after = c := by
  rw [setVelocity]
  simp only [ensures_bind, ensures_checking]
  split
  next checked =>
    simp only [ensures_get]
    split
    · rfl
    · simp only [ensures_bind, ensures_checking]
      split
      · exact ⟨checkPart_eq_ok_iff.mp checked, drives_changeStructure fun _ => rfl⟩
      · trivial
  next => trivial

omit [Scalar α] in
theorem ensures_restore {record : RestartRecord α} :
    (restore record : Work shape α Unit).Ensures c
      (fun _ after => record.velocities.length = c.structures.length ∧
        after.drives = List.zipWith (·.withVelocity ·) c.drives record.velocities)
      fun after => after = c := by
  rw [restore]
  simp only [ensures_bind, ensures_get]
  split
  · rfl
  · split
    · simp only [ensures_attempt, ensures_refuse]
    next compatible =>
      simp only [ensures_bind, ensures_modify, ensures_tell]
      refine ⟨length_of_checkCompatible compatible, ?_⟩
      rw [Coordinator.drives, Coordinator.drives, List.map_zipWith, List.zipWith_map_left]
      rfl

/--
Whatever the flow and the collectives do: a call that succeeds has addressed structures that
exist, and leaves the drives that it stands for; a call that stops leaves some structures
with these drives, and the others with their own.
-/
theorem ensures_serve (flow : FlowTransfer α σ) (call : Call shape α) (state : σ) :
    (call.serve flow).Ensures (c, state)
      (fun _ after => call.Addresses c.structures.length ∧ after.1.drives = call.driven c.drives)
      fun after => after.1.Between c.drives (call.driven c.drives) := by
  have driven : c.DrivenBy c.drives := drivenBy_iff.mpr rfl
  have same (after : Coordinator shape α) (drives : List (Drive α))
      (kept : after.drives = c.drives) : after.Between c.drives drives :=
    fun part => Or.inl (by rw [kept])
  -- Most calls do not touch the drives.
  have quiet {action : Action α (Coordinator shape α × σ) Unit}
      (upholds : Upholds (fun state => state.1.DrivenBy c.drives) action) :
      action.Ensures (c, state) (fun _ after => True ∧ after.1.drives = c.drives)
        fun after => after.1.Between c.drives c.drives :=
    (upholds (c, state) driven).imp (fun _ _ kept => ⟨trivial, drivenBy_iff.mp kept⟩)
      fun _ kept => same _ _ (drivenBy_iff.mp kept)
  cases call with
  | prepare => exact quiet (upholds_first upholds_prepare)
  | listen listener => exact quiet (upholds_first (upholds_modify fun _ driven => driven))
  | createComposite =>
      refine quiet (upholds_get_bind ?_)
      rintro ⟨c, _⟩ _
      exact upholds_bind (upholds_collective _) fun _ => upholds_pure ()
  | preprocess current new =>
      rw [Call.serve, ensures_first]
      apply (ensures_preprocess driven).imp
      · exact fun _ _ opened => ⟨trivial, opened⟩
      · exact fun _ opened part => opened.imp (fun same => by rw [same]) fun same => by
          rw [same]
          rfl
  | postprocess =>
      rw [Call.serve, ensures_first]
      exact (ensures_postprocess driven).imp (fun _ _ committed => ⟨trivial, committed⟩)
        fun _ between => between
  | fluidCalls current new cycle => exact quiet (upholds_pure ())
  | requestInterpolation time =>
      exact quiet (upholds_first (upholds_attempting upholds_committing))
  | interpolate time => exact quiet upholds_interpolate
  | readVelocities composite time factor =>
      apply quiet
      rintro ⟨c, state⟩ driven
      rw [Call.serve, ensures_of]
      simp only
      cases c.readVelocities time factor composite <;> exact driven
  | advance rule current new => exact quiet (upholds_first upholds_advance)
  | skipForce time =>
      exact quiet (upholds_first (upholds_get_bind fun _ _ => upholds_tell _))
  | setForce composite time factor => exact quiet (upholds_first upholds_setForce)
  | changeForces time change =>
      exact quiet (upholds_first (upholds_bind upholds_changeForces fun _ => upholds_pure ()))
  | computeForce part force =>
      exact quiet (upholds_first (upholds_bind upholds_computeForce fun _ => upholds_pure ()))
  | setBodyVelocity part dofs composite =>
      apply quiet
      rintro ⟨c, state⟩ driven
      rw [Call.serve, ensures_of, Task.always_bind]
      apply Task.Always.imp (upholds_setBodyVelocity (c, composite) driven)
      rintro ⟨_ | _, after, _⟩ driven <;> exact driven
  | updateVelocity part dofs =>
      rw [Call.serve, ensures_first]
      exact ensures_updateVelocity.imp (fun _ _ updated => updated) fun _ unchanged =>
        same _ _ (by rw [unchanged])
  | setVelocity part velocity =>
      rw [Call.serve, ensures_first]
      exact ensures_setVelocity.imp (fun _ _ updated => updated) fun _ unchanged =>
        same _ _ (by rw [unchanged])
  | spread time => exact quiet upholds_spread
  | restartRecord => exact quiet (upholds_pure ())
  | restore record =>
      rw [Call.serve, ensures_first]
      exact ensures_restore.imp (fun _ _ restored => restored) fun _ unchanged =>
        same _ _ (by rw [unchanged])

end

end Coordinator

end ImmersedBody
