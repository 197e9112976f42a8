import ImmersedBody.Proofs.Coordinator.ExactMotion
import ImmersedBody.Proofs.Coordinator.Drives
import ImmersedBody.Proofs.Rigid.Movements

/-!
# Structures that stay in the plane

A structure in the plane has a rigid velocity with three components.  It stays in the
plane, and updates of its positions move it rigidly, as long as the other components
vanish that it has in space: the translation out of the plane, and the rotations about
the two axes within it (`RigidVelocity.fits_two_iff`).

Generalized velocities have no such components.  But a velocity may also come from the
description of a structure, from its prescribed motion, from a call that sets it and
from a restart record, and nothing looks at its components there.
`planar_while_given_planar` says that structures move within the plane exactly as long
as all of these velocities do.  A velocity that does not turns the nodes out of the
plane, and what becomes of them is projected: the structure is deformed.
-/

namespace ImmersedBody

open ImmersedBody.Action

variable {α σ : Type} {shape : Shape}

/-! ## What a coordinator may come to -/

/-- The values of a prescribed velocity at the three times of a step. -/
def BodyMotion.during (window : StepWindow α) : BodyMotion α → List (RigidVelocity α)
  | free => []
  | prescribed velocity => [velocity window.current, velocity window.half, velocity window.new]

namespace Coordinator

/-- The rigid velocities that a call supplies structures with. -/
def Call.supplied [Scalar α] (drives : List (Drive α)) : Call shape α → List (RigidVelocity α)
  | preprocess current new => drives.flatMap (·.motion.during (.between current new))
  | updateVelocity _ dofs => [.ofDofs shape.dim dofs]
  | setVelocity _ velocity => [velocity]
  | restore record => record.velocities
  | _ => []

/--
The coordinators that a rank may come to hold.  Every call has a flow of its own, its collectives
may have any outcome, and it may stop.  The velocities that the structures are described with and
that calls give to them are allowed.
-/
inductive Possible [Scalar α] (settings : Settings α)
    (descriptions : List (StructureDescription shape α)) (seat : Seat)
    (allowed : RigidVelocity α → Prop) : Coordinator shape α → Prop where
  | registered {c : Coordinator shape α}
      (described : ∀ description ∈ descriptions, allowed description.initialVelocity)
      (created : Task.MayReturn (register settings descriptions seat).run (.ok c)) :
      Possible settings descriptions seat allowed c
  | called {σ : Type} {c after : Coordinator shape α} {state' : σ} {outcome : Except (Stop α) Unit}
      (earlier : Possible settings descriptions seat allowed c) (flow : FlowTransfer α σ)
      (state : σ) (call : Call shape α)
      (given : ∀ velocity ∈ call.supplied c.drives, allowed velocity)
      (served : Task.MayReturn ((call.serve flow).on (c, state)) (outcome, after, state')) :
      Possible settings descriptions seat allowed after

/-- Registration issues no collective. -/
theorem eq_of_mayReturn_register [Scalar α] {settings : Settings α}
    {descriptions : List (StructureDescription shape α)} {seat : Seat}
    {result : Except (Stop α) (Coordinator shape α)}
    (may : Task.MayReturn (register settings descriptions seat).run result) :
    (register settings descriptions seat).alone = result := by
  have always : Task.Always (fun result => (register settings descriptions seat).alone = result)
      (register settings descriptions seat).run := by
    rw [register]
    cases settings.check with
    | error fault =>
        rfl
    | ok _ =>
        cases setUpAll settings.objectName seat 0 descriptions <;> rfl
  exact Task.Always.of_mayReturn may always

end Coordinator

/-! ## Velocities that fit -/

theorem RigidVelocity.fits_two_iff {velocity : RigidVelocity ℝ} :
    velocity.Fits .two ↔
      velocity.translational.z = 0 ∧ velocity.rotational.x = 0 ∧ velocity.rotational.y = 0 := by
  constructor
  · intro fits
    have flat := congrArg Vec3.z fits.flat
    exact ⟨flat.symm, fits.turns rfl⟩
  · rintro ⟨flat, turns⟩
    exact ⟨by rw [Dim.flatten_two, ← flat], fun _ => turns⟩

namespace RigidVelocity.Fits

variable {dim : Dim} {velocity velocity' : RigidVelocity ℝ}

/-- A generalized velocity has no components but those of its dimension. -/
theorem ofDofs (dofs : Vector ℝ dim.rigidSize) : (RigidVelocity.ofDofs dim dofs).Fits dim where
  flat := by cases dim <;> rfl
  turns := Dim.TurnsWithin.angularPart dofs

theorem average (fits : velocity.Fits dim) (fits' : velocity'.Fits dim) :
    (velocity.average velocity').Fits dim where
  flat := by
    have flat := fits.flat
    have flat' := fits'.flat
    show dim.flatten ((velocity.translational + velocity'.translational).scale _) = _
    rw [Dim.flatten_scale, Dim.flatten_add, flat, flat']
    rfl
  turns := fits.turns.average fits'.turns

end RigidVelocity.Fits

/-- All velocities of a drive fit a dimension. -/
def Drive.Fits (dim : Dim) (drive : Drive ℝ) : Prop :=
  ∀ level, (drive.velocity.get level).Fits dim

namespace Drive.Fits

variable {dim : Dim} {drive : Drive ℝ} {window : StepWindow ℝ}

theorem opened (fits : drive.Fits dim)
    (given : ∀ velocity ∈ drive.motion.during window, velocity.Fits dim) :
    (drive.opened window).Fits dim := by
  rcases drive with ⟨_ | motion, velocity⟩
  · intro level
    cases level <;> exact fits .current
  · intro level
    cases level <;> exact given _ (by simp [Drive.opened, BodyMotion.during, TimeLevels.get])

/-- Prescribed velocities are evaluated when a step is opened, and nowhere else. -/
theorem of_opened (fits : (drive.opened window).Fits dim) :
    ∀ velocity ∈ drive.motion.during window, velocity.Fits dim := by
  rcases drive with ⟨_ | motion, velocity⟩
  · nofun
  · simp only [BodyMotion.during, List.forall_mem_cons]
    exact ⟨fits .current, fits .half, fits .new, nofun⟩

theorem committed (fits : drive.Fits dim) : drive.committed.Fits dim := by
  intro level
  cases level with
  | current | new => exact fits .new
  | half => exact fits .half

theorem updated (fits : drive.Fits dim) {new : RigidVelocity ℝ} (given : new.Fits dim) :
    (drive.updated new).Fits dim := by
  intro level
  cases level with
  | current => exact fits .current
  | half => exact (fits .current).average given
  | new => exact given

theorem withVelocity {velocity : RigidVelocity ℝ} :
    (drive.withVelocity velocity).Fits dim ↔ velocity.Fits dim :=
  ⟨fun fits => fits .current, fun fits level => by cases level <;> exact fits⟩

end Drive.Fits

namespace Coordinator

/-- The velocities of all structures at the three times of a step fit their dimension. -/
def MovesWithin (c : Coordinator shape ℝ) : Prop :=
  ∀ body ∈ c.structures, ∀ level, (body.velocity.get level).Fits shape.dim

variable {drives : List (Drive ℝ)} {call : Call shape ℝ} {c : Coordinator shape ℝ}

theorem movesWithin_iff : c.MovesWithin ↔ ∀ drive ∈ c.drives, drive.Fits shape.dim := by
  simp [MovesWithin, drives, Drive.Fits, RigidStructure.drive]

/-- What holds of all members of a list, and of what one of them is changed into. -/
theorem forall_mem_modify {τ : Type} {property : τ → Prop} {change : τ → τ} {members : List τ}
    (kept : ∀ member ∈ members, property member)
    (changed : ∀ member ∈ members, property (change member)) {number : Nat} :
    ∀ member ∈ members.modify number change, property member := by
  intro member inside
  rcases List.getElem?_of_mem inside with ⟨i, found⟩
  rw [List.getElem?_modify] at found
  rcases Option.map_eq_some_iff.mp found with ⟨before, there, rfl⟩
  split
  · exact changed before (List.mem_of_getElem? there)
  · exact kept before (List.mem_of_getElem? there)

/-- Velocities that fit make up drives that fit. -/
theorem Call.fits_driven (fits : ∀ drive ∈ drives, drive.Fits shape.dim)
    (given : ∀ velocity ∈ call.supplied drives, velocity.Fits shape.dim) :
    ∀ drive ∈ call.driven drives, drive.Fits shape.dim := by
  cases call with
  | preprocess current new =>
      simp only [Call.driven, List.forall_mem_map]
      intro drive member
      exact (fits drive member).opened fun velocity found =>
        given velocity (List.mem_flatMap.mpr ⟨drive, member, found⟩)
  | postprocess =>
      simp only [Call.driven, List.forall_mem_map]
      exact fun drive member => (fits drive member).committed
  | updateVelocity part dofs =>
      exact forall_mem_modify fits fun drive member => (fits drive member).updated (.ofDofs dofs)
  | setVelocity part velocity =>
      exact forall_mem_modify fits fun _ _ =>
        Drive.Fits.withVelocity.mpr (given velocity List.mem_cons_self)
  | restore record =>
      rw [Call.driven]
      intro drive member
      rcases List.getElem_of_mem member with ⟨i, inside, rfl⟩
      rw [List.getElem_zipWith]
      exact Drive.Fits.withVelocity.mpr (given _ (List.getElem_mem _))
  | _ => exact fits

/-- Drives that fit are made up of velocities that fit. -/
theorem Call.fits_supplied (addresses : call.Addresses drives.length)
    (fits : ∀ drive ∈ call.driven drives, drive.Fits shape.dim) :
    ∀ velocity ∈ call.supplied drives, velocity.Fits shape.dim := by
  cases call with
  | preprocess current new =>
      simp only [Call.driven, List.forall_mem_map] at fits
      intro velocity found
      rcases List.mem_flatMap.mp found with ⟨drive, member, found⟩
      exact (fits drive member).of_opened velocity found
  | updateVelocity part dofs =>
      intro velocity found
      rw [List.mem_singleton.mp found]
      exact .ofDofs dofs
  | setVelocity part velocity =>
      intro other found
      rw [List.mem_singleton.mp found]
      have inside : part < drives.length := addresses
      have changed : (drives.modify part (·.withVelocity velocity))[part]? =
          some (drives[part].withVelocity velocity) := by
        simp [inside]
      exact Drive.Fits.withVelocity.mp (fits _ (List.mem_of_getElem? changed))
  | restore record =>
      rw [Call.supplied]
      intro velocity found
      rcases List.getElem_of_mem found with ⟨i, inside, rfl⟩
      have length_eq : record.velocities.length = drives.length := addresses
      have changed : (List.zipWith (·.withVelocity ·) drives record.velocities)[i]? =
          some (drives[i].withVelocity record.velocities[i]) := by
        simp [inside, length_eq ▸ inside]
      exact Drive.Fits.withVelocity.mp (fits _ (List.mem_of_getElem? changed))
  | _ => nofun

end Coordinator

/-! ## Updates of the positions -/

/-- What an update of the positions by a rule has done to a structure. -/
def RigidStructure.Moved (rule : AdvanceRule) (window : StepWindow ℝ)
    (before after : RigidStructure shape ℝ) : Prop :=
  match rule with
  | .forwardEuler => ∃ step, after.step = some step ∧
      before.positions.MovedRigidly shape.dim before.velocity.current before.currentMass.center
        (Scalar.half * window.length) step.halfPositions
  | .midpoint => ∃ step, after.step = some step ∧
      before.positions.MovedRigidly shape.dim before.velocity.half before.currentMass.center
        window.length step.newPositions
  | .trapezoidal => True

namespace Coordinator

open NodalField

variable {drives : List (Drive ℝ)} {c : Coordinator shape ℝ}

section

variable {body : RigidStructure shape ℝ} {seat : Seat} {objectName : String} {order part : Nat}
  {window : StepWindow ℝ}

theorem ensures_predict (fits : (body.velocity.get .current).Fits shape.dim) :
    (predict seat objectName order window part).Ensures body
      (fun _ after => body.Moved .forwardEuler window after) fun _ => True := by
  rw [predict]
  simp only [ensures_bind, ensures_get, ensures_known, ensures_part]
  split
  next step opened =>
    split
    next moved displaced =>
      have rigid := movedRigidly_of_displace fits.turns displaced
      simp only [stepFields, ensures_collective, ensures_set, ensures_attempt]
      apply (always_close moved seat).imp _ fun _ => trivial
      intro halfPositions same
      exact Collective.always_of_forall (fun halfMass => ⟨_, rfl, rigid.congr same⟩) trivial
    next => trivial
  next => trivial

theorem ensures_update (fits : (body.velocity.get .half).Fits shape.dim) :
    (update seat window part).Ensures body
      (fun _ after => body.Moved .midpoint window after) fun _ => True := by
  rw [update]
  simp only [ensures_bind, ensures_get, ensures_known, ensures_part]
  split
  next step opened =>
    split
    next moved displaced =>
      have rigid := movedRigidly_of_displace fits.turns displaced
      simp only [stepFields, ensures_collective, ensures_set]
      apply (always_close moved seat).imp _ fun _ => trivial
      exact fun newPositions same => ⟨_, rfl, rigid.congr same⟩
    next => trivial
  next => trivial

/-- An update of the positions that succeeds has moved all structures rigidly. -/
theorem ensures_advance (within : c.MovesWithin) {rule : AdvanceRule} {current new : ℝ} :
    (advance rule current new).Ensures c
      (fun _ after => ∃ window, c.protocol.window = some window ∧
        List.Forall₂ (RigidStructure.Moved rule window) c.structures after.structures)
      fun _ => True := by
  rw [advance]
  simp only [ensures_bind, ensures_get, ensures_checking, ensures_attempting, ensures_committing]
  split
  next =>
    cases accepted : c.protocol.advance rule with
    | error violation => trivial
    | ok outcome =>
        rcases StepProtocol.advance_eq_ok_iff.mp accepted with ⟨_, window, found, started, -, rfl⟩
        have each (part : Nat) (before body : RigidStructure shape ℝ)
            (same : before = body ∧ body ∈ c.structures) :
            (advancing c rule window part).Ensures body
              (fun _ after => before.Moved rule window after) fun _ => True := by
          rcases same with ⟨rfl, member⟩
          cases rule with
          | forwardEuler => exact ensures_predict (within before member .current)
          | midpoint => exact ensures_update (within before member .half)
          | trapezoidal => trivial
        have moves {begun : Coordinator shape ℝ} (same : begun.structures = c.structures) :
            (forEachStructure (advancing c rule window)).Ensures begun
              (fun _ after => ∃ window, c.protocol.window = some window ∧
                List.Forall₂ (RigidStructure.Moved rule window) c.structures after.structures)
              fun _ => True := by
          have labelled : List.Forall₂ (fun before body => before = body ∧ body ∈ c.structures)
              c.structures begun.structures := by
            rw [same]
            exact List.forall₂_same.mpr fun body member => ⟨rfl, member⟩
          apply (ensures_forEachStructure each labelled).imp _ fun _ _ => trivial
          rintro _ _ ⟨structures, moved, rfl⟩
          exact ⟨window, started, moved⟩
        cases rule with
        | forwardEuler | midpoint =>
            simp only [ensures_bind, ensures_tell]
            exact moves rfl
        | trapezoidal => exact absurd found Phase.after_trapezoidal_ne_ok
  next => trivial

end

/-! ## The main result -/

section

variable {settings : Settings ℝ} {descriptions : List (StructureDescription shape ℝ)} {seat : Seat}

theorem length_drives : c.drives.length = c.structures.length :=
  List.length_map ..

/-- After a call some structures have the drives that it stands for, and the others their own. -/
theorem fits_of_between {after : Coordinator shape ℝ} {next : List (Drive ℝ)}
    (before : ∀ drive ∈ drives, drive.Fits shape.dim)
    (afterwards : ∀ drive ∈ next, drive.Fits shape.dim)
    (between : after.Between drives next) : ∀ drive ∈ after.drives, drive.Fits shape.dim := by
  intro drive member
  rcases List.getElem?_of_mem member with ⟨part, found⟩
  rcases between part with same | same
  · exact before drive (List.mem_of_getElem? (same.symm.trans found))
  · exact afterwards drive (List.mem_of_getElem? (same.symm.trans found))

/-- Structures never leave the plane as long as no velocity does that they are given. -/
theorem Possible.movesWithin
    (possible : Possible settings descriptions seat (RigidVelocity.Fits shape.dim) c) :
    c.MovesWithin := by
  induction possible with
  | registered described created =>
      rcases exists_bodies_of_register (eq_of_mayReturn_register created) with ⟨bodies, made, rfl⟩
      intro body member level
      rcases List.getElem_of_mem member with ⟨part, inside, rfl⟩
      have created := made.get (made.length_eq ▸ inside) inside
      have velocity_eq : bodies[part].velocity = .uniform _ :=
        (RigidStructure.fields_of_setUp created).2.2.2.1
      have fits := described _ (List.get_mem descriptions ⟨part, made.length_eq ▸ inside⟩)
      simp only [velocity_eq]
      cases level <;> exact fits
  | @called σ c after state' outcome earlier flow state call given served ih =>
      rw [movesWithin_iff] at *
      have driven := Call.fits_driven ih given
      have ensured := Task.Always.of_mayReturn served (ensures_serve flow call state)
      rcases outcome with stop | _
      · exact fits_of_between ih driven ensured
      · rw [ensured.2]
        exact driven

/--
Whatever has been called before, on any number of ranks, and however the calls ended: as long as
the structures have been given only velocities that fit the dimension, all their velocities do, at
the three times of a step.  Every update of the positions that succeeds then moves the structures
rigidly.  A call that succeeds leaves velocities that fit exactly if those fit that it has given.
-/
theorem planar_while_given_planar
    (possible : Possible settings descriptions seat (RigidVelocity.Fits shape.dim) c) :
    c.MovesWithin ∧
    (∀ rule current new, (advance rule current new).Ensures c
      (fun _ after => ∃ window, c.protocol.window = some window ∧
        List.Forall₂ (RigidStructure.Moved rule window) c.structures after.structures)
      fun _ => True) ∧
    ∀ {σ : Type} (flow : FlowTransfer ℝ σ) (call : Call shape ℝ) (state : σ),
      (call.serve flow).Ensures (c, state)
        (fun _ after => after.1.MovesWithin ↔
          ∀ velocity ∈ call.supplied c.drives, velocity.Fits shape.dim)
        fun _ => True := by
  have within := possible.movesWithin
  refine ⟨within, fun _ _ _ => ensures_advance within, fun flow call state => ?_⟩
  apply (ensures_serve flow call state).imp _ fun _ _ => trivial
  rintro _ after ⟨addresses, driven⟩
  rw [movesWithin_iff] at *
  rw [driven]
  constructor
  · rw [← length_drives] at addresses
    exact Call.fits_supplied addresses
  · exact Call.fits_driven within

/-- A call on the only rank is one of those that a coordinator may go through. -/
theorem Possible.serveAlone {allowed : RigidVelocity ℝ → Prop}
    (possible : Possible settings descriptions seat allowed c) (flow : FlowTransfer ℝ σ) (state : σ)
    (call : Call shape ℝ) (given : ∀ velocity ∈ call.supplied c.drives, allowed velocity) :
    Possible settings descriptions seat allowed (serveAlone flow (c, state) call).1 :=
  possible.called flow state call given (Task.mayReturn_alone _)

end

open StructureDescription in
/-- The square that slides and turns is opened for a step and its positions are predicted. -/
theorem planar_turningSquare :
    ∃ c, (register ⟨"square", 0, 1 / 10⟩ [turningSquare] .alone).alone = .ok c ∧
      let flow := AnalyticFlow.atRest .two
      let opened := serveAlone flow (c, SpreadTally.empty) (.preprocess 0 1)
      let predicted := serveAlone flow opened (.advance .forwardEuler 0 1)
      opened.1.MovesWithin ∧ Call.Succeeds (.advance .forwardEuler 0 1) flow opened ∧
        ∃ window, opened.1.protocol.window = some window ∧
          List.Forall₂ (RigidStructure.Moved .forwardEuler window) opened.1.structures
            predicted.1.structures := by
  rcases exists_register_turningSquare with ⟨c, registered⟩
  refine ⟨c, registered, ?_⟩
  intro flow opened predicted
  have ready := ready_turningSquare rfl registered
  rcases @Ready.serve_preprocess .triangle _ _ _ (c, SpreadTally.empty) ready 0 1 flow with
    ⟨-, unhindered⟩
  rcases unhindered.serve_advance ready.tolerant (c.protocol.predict_opened _) flow with
    ⟨succeeds, -⟩
  have described : ∀ description ∈ [turningSquare],
      description.initialVelocity.Fits Shape.triangle.dim := by
    intro description member
    rw [List.mem_singleton.mp member]
    exact fits_turningSquare
  have start : Possible ⟨"square", 0, 1 / 10⟩ [turningSquare] .alone
      (RigidVelocity.Fits Shape.triangle.dim) c :=
    .registered described (registered ▸ Task.mayReturn_alone _)
  -- The square is free: nothing gives it a velocity.
  have given : ∀ velocity ∈ (Call.preprocess 0 1 : Call .triangle ℝ).supplied c.drives,
      velocity.Fits Shape.triangle.dim := by
    intro velocity found
    rcases List.mem_flatMap.mp found with ⟨drive, member, found⟩
    rcases List.mem_map.mp member with ⟨body, inside, rfl⟩
    have free : body.motion = .free := (RigidStructure.fields_of_setUp
      (setUp_of_register_turningSquare registered body inside)).2.2.1
    simp [RigidStructure.drive, free, BodyMotion.during] at found
  rcases planar_while_given_planar (start.serveAlone flow SpreadTally.empty _ given) with
    ⟨within, rigidly, -⟩
  refine ⟨within, succeeds, ?_⟩
  have served : (Call.serve flow (.advance .forwardEuler 0 1)).Ends opened
      (fun _ after => ∃ window, opened.1.protocol.window = some window ∧
        List.Forall₂ (RigidStructure.Moved .forwardEuler window) opened.1.structures
          after.1.structures) fun _ => True := by
    rw [Call.serve, ends_first]
    exact (rigidly .forwardEuler 0 1).ends
  exact serveAlone_of_succeeds succeeds served

end Coordinator

/-! ## A square that tips over -/

/-- The square of two triangles, which begins to turn about an axis within its plane. -/
noncomputable def StructureDescription.tippingSquare : StructureDescription .triangle ℝ where
  mesh := MassProperties.square
  motion := .accelerated 0 ⟨0, ⟨Real.pi, 0, 0⟩⟩
  nodalVelocity := .rigid .two
  initialVelocity := 0

/-- A quarter turn about the first axis. -/
theorem rotation_quarter :
    rotation ⟨Real.pi / 2, 0, 0⟩ (1 : ℝ) = ⟨⟨1, 0, 0⟩, ⟨0, 0, -1⟩, ⟨0, 1, 0⟩⟩ := by
  have large : (1 : ℝ) ≤ Real.pi / 2 := Real.one_le_pi_div_two
  have norm_eq : (⟨Real.pi / 2, 0, 0⟩ : Vec3 ℝ).norm = Real.pi / 2 := by
    simp only [Vec3.norm, Vec3.normSq, Vec3.dot, mul_zero, add_zero]
    exact Real.sqrt_mul_self (zero_le_one.trans large)
  have turns : ¬ Scalar.le (Real.pi / 2) (Scalar.epsilon : ℝ) = true := by
    rw [Scalar.le_real_iff, Scalar.epsilon]
    norm_num
    linarith
  have unit : Real.pi / 2 / (Real.pi / 2) = 1 := div_self (by positivity)
  have sine : (Scalar.sin (Real.pi / 2) : ℝ) = 1 := Real.sin_pi_div_two
  have cosine : (Scalar.cos (Real.pi / 2) : ℝ) = 0 := Real.cos_pi_div_two
  rw [rotation, norm_eq, if_neg turns, mul_one]
  simp only [Vec3.divide, unit, zero_div]
  ext <;> simp [sine, cosine]

/-- Without a velocity nothing turns. -/
theorem rotation_still (time : ℝ) : rotation (0 : Vec3 ℝ) time = 1 := by
  rcases rotation_cases 0 with still | ⟨unit, -⟩
  · exact still time
  · simp [Vec3.divide, Vec3.normSq, Vec3.dot] at unit

namespace RigidStructure

open StructureDescription MassProperties

/-- The square that tips over, where it is described. -/
structure Tips (body : RigidStructure .triangle ℝ) : Prop where
  motion : body.motion = tippingSquare.motion
  mesh : body.mesh = square
  partition : body.partition = .ofMesh square .alone
  covers : body.layout.Covers square
  placed : body.positions.Places body.layout square fun x => x

theorem tips_of_setUp {body : RigidStructure .triangle ℝ}
    (created : setUp tippingSquare .alone = .ok body) : body.Tips := by
  rcases fields_of_setUp created with ⟨mesh, partition, motion, -⟩
  rcases places_of_setUp rfl created with ⟨covers, placed⟩
  exact ⟨motion, mesh, partition, covers, placed⟩

/-- The square in a step from zero to one. -/
structure TipsOver (body : RigidStructure .triangle ℝ) : Prop extends Tips body where
  center : body.currentMass.center = ⟨1, 1, 0⟩
  current : body.velocity.current = 0
  half : body.velocity.half = ⟨0, ⟨Real.pi / 2, 0, 0⟩⟩
  step : ∃ step, body.step = some step ∧ step.halfPositions.layout = body.layout ∧
    step.newPositions.layout = body.layout

variable {body : RigidStructure .triangle ℝ}

theorem Tips.opened (tips : body.Tips) {mass : MassProperties ℝ}
    (computed : (body.massAt body.positions 0).alone = .ok mass) :
    ((body.withMass mass).opened (.between 0 1)).TipsOver where
  motion := tips.motion
  mesh := tips.mesh
  partition := tips.partition
  covers := tips.covers
  placed := tips.placed
  center := by
    rcases Coordinator.exists_mass_square tips.mesh tips.partition tips.placed with
      ⟨_, found, center⟩
    cases computed.symm.trans found
    exact center
  current := by
    have zero : (⟨0, 0⟩ : RigidVelocity ℝ) = 0 := rfl
    simp only [RigidStructure.opened, withMass, tips.motion, tippingSquare, BodyMotion.accelerated,
      StepWindow.between, ← zero]
    congr 1 <;> ext <;> simp
  half := by
    have zero : (⟨0, 0⟩ : RigidVelocity ℝ) = 0 := rfl
    simp only [RigidStructure.opened, withMass, tips.motion, tippingSquare, BodyMotion.accelerated,
      StepWindow.between, ← zero]
    congr 1 <;> ext <;> simp
    ring
  step := ⟨_, rfl, tips.placed.layout_eq, tips.placed.layout_eq⟩

/-- The square after it has tipped: its corners on the left have met. -/
structure Tipped (body : RigidStructure .triangle ℝ) : Prop where
  half : body.velocity.half = ⟨0, ⟨Real.pi / 2, 0, 0⟩⟩
  met : ∃ step, body.step = some step ∧ step.newPositions.vector .two 0 = .ok ⟨0, 1, 0⟩ ∧
    step.newPositions.vector .two 2 = .ok ⟨0, 1, 0⟩

end RigidStructure

namespace Coordinator

open RigidStructure StructureDescription MassProperties

variable {body : RigidStructure .triangle ℝ} {seat : Seat} {objectName : String} {part : Nat}

/-- The prediction leaves the square where it is. -/
theorem ends_predict_tips (serial : seat.size = 1) (tips : body.TipsOver) :
    (predict seat objectName 0 (.between 0 1) part).Ends body (fun _ after => after.TipsOver)
      fun _ => False := by
  rcases tips.step with ⟨step, opened, half, new⟩
  apply (ends_predict_placed serial opened tips.covers tips.placed half).imp
  · rintro _ _ ⟨halfPositions, halfMass, places, rfl⟩
    exact { tips with step := ⟨_, rfl, places.layout_eq, new⟩ }
  · rintro _ ⟨halfPositions, places, refused, -⟩
    -- Nothing moves with the current velocity, so that the mass can be computed again.
    have still : halfPositions.Places body.layout square fun x => x := by
      refine ⟨places.layout_eq, fun node inside => (places.vector_eq node inside).trans ?_⟩
      have rest : (0 : RigidVelocity ℝ).rotational = 0 ∧ (0 : RigidVelocity ℝ).translational = 0 :=
        ⟨rfl, rfl⟩
      simp only [tips.current, rest, RigidDisplacement.about, RigidDisplacement.apply,
        rotation_still]
      congr 1
      ext <;> simp [Mesh.place, Dim.flatten_two, Vec3.dot]
    rcases exists_mass_square tips.mesh tips.partition still with ⟨mass, computed, -⟩
    exact refused mass computed

/-- The update turns the square by a quarter, and projects it. -/
theorem ends_update_tips (serial : seat.size = 1) (tips : body.TipsOver) :
    (update seat (.between 0 1) part).Ends body (fun _ after => after.Tipped)
      fun _ => False := by
  rcases tips.step with ⟨step, opened, -, new⟩
  apply (ends_update_placed serial opened tips.covers tips.placed new).imp _ fun _ => id
  rintro _ _ ⟨newPositions, places, rfl⟩
  have length_eq : (StepWindow.between 0 1 : StepWindow ℝ).length = 1 := by
    simp [StepWindow.length, StepWindow.between]
  refine ⟨tips.half, _, rfl, (places.vector_eq 0 (by decide)).trans ?_,
    (places.vector_eq 2 (by decide)).trans ?_⟩
  all_goals
    rw [tips.half, tips.center, length_eq]
    simp only [RigidDisplacement.about, RigidDisplacement.apply, rotation_quarter]
    congr 1
    ext <;> simp [Mesh.place, square, Dim.flatten_two, Vec3.dot]

theorem exists_register_tippingSquare :
    ∃ c, (register ⟨"square", 0, 1 / 10⟩ [tippingSquare] .alone).alone = .ok c := by
  have checked : Settings.check (⟨"square", 0, 1 / 10⟩ : Settings ℝ) = .ok () := by
    simp [Settings.check, Settings.maximumOrder]
  rw [register, checked]
  exact ⟨_, rfl⟩

section

variable {σ : Type} {settings : Settings ℝ} {start : Coordinator .triangle ℝ × σ} {count : Nat}

/-- Nothing stops the square while it tips over. -/
theorem Standing.serve_tips (standing : start.1.Standing settings count fun _ body => body.Tips)
    (outside : start.1.protocol.phase.inStep = false) (order : settings.quadratureOrder = 0)
    (tolerant : 0 ≤ settings.timeTolerance) (flow : FlowTransfer ℝ σ) :
    let opened := serveAlone flow start (.preprocess 0 1)
    let predicted := serveAlone flow opened (.advance .forwardEuler 0 1)
    Call.Succeeds (.preprocess 0 1) flow start ∧
      Call.Succeeds (.advance .forwardEuler 0 1) flow opened ∧
      Call.Succeeds (.advance .midpoint 0 1) flow predicted ∧
      (serveAlone flow predicted (.advance .midpoint 0 1)).1.Standing settings count
        fun _ body => body.Tipped := by
  intro opened predicted
  have weighable (_ : Nat) (body : RigidStructure .triangle ℝ) (tips : body.Tips) : ∃ mass,
      (body.massAt body.positions settings.quadratureOrder).alone = .ok mass := by
    rcases exists_mass_square tips.mesh tips.partition tips.placed with ⟨mass, computed, -⟩
    exact ⟨mass, order ▸ computed⟩
  rcases standing.serve_preprocess outside (fun _ _ mass tips _ => { tips with }) weighable 0 1
    flow with ⟨opens, weighed, first⟩
  have tipping : opened.1.Standing settings count fun _ body => body.TipsOver := by
    apply weighed.imp
    rintro _ _ ⟨_, ⟨body, mass, tips, computed, rfl⟩, rfl⟩
    exact tips.opened (order ▸ computed)
  have accepted : opened.1.protocol.advance .forwardEuler =
      .ok ⟨.between 0 1, [], start.1.protocol.advanced (.between 0 1)⟩ := by
    rw [show opened.1.protocol = _ from first]
    exact start.1.protocol.predict_opened _
  have stays (part : Nat) (body : RigidStructure .triangle ℝ) (tips : body.TipsOver) :
      (advancing opened.1 .forwardEuler (.between 0 1) part).Ends body
        (fun _ after => after.TipsOver) fun _ => False := by
    rw [advancing, tipping.settings_eq, order]
    exact ends_predict_tips tipping.serial tips
  rcases tipping.serve_advance tolerant (congrArg StepProtocol.window first) accepted stays flow
    with ⟨predicts, still, second⟩
  have accepted' : predicted.1.protocol.advance .midpoint =
      .ok ⟨.between 0 1, [], start.1.protocol.advanced (.between 0 1)⟩ := by
    rw [show predicted.1.protocol = _ from second]
    exact start.1.protocol.advance_advanced _
  have turns (part : Nat) (body : RigidStructure .triangle ℝ) (tips : body.TipsOver) :
      (advancing predicted.1 .midpoint (.between 0 1) part).Ends body
        (fun _ after => after.Tipped) fun _ => False :=
    ends_update_tips still.serial tips
  rcases still.serve_advance tolerant (congrArg StepProtocol.window second) accepted' turns flow
    with ⟨moves, tipped, -⟩
  exact ⟨opens, predicts, moves, tipped⟩

end

/--
The square is given velocities that turn it about an axis within its plane.  Its step is not
refused, and two of its corners meet.
-/
theorem corners_meet_tippingSquare :
    ∃ c first, (register ⟨"square", 0, 1 / 10⟩ [tippingSquare] .alone).alone = .ok c ∧
      c.structures[0]? = some first ∧
      first.positions.vector .two 0 = .ok ⟨0, 0, 0⟩ ∧
      first.positions.vector .two 2 = .ok ⟨0, 2, 0⟩ ∧
      let flow := AnalyticFlow.atRest .two
      let opened := serveAlone flow (c, SpreadTally.empty) (.preprocess 0 1)
      let predicted := serveAlone flow opened (.advance .forwardEuler 0 1)
      let moved := serveAlone flow predicted (.advance .midpoint 0 1)
      Call.Succeeds (.preprocess 0 1) flow (c, SpreadTally.empty) ∧
        Call.Succeeds (.advance .forwardEuler 0 1) flow opened ∧
        Call.Succeeds (.advance .midpoint 0 1) flow predicted ∧
        ¬ moved.1.MovesWithin ∧
        ∃ body step, moved.1.structures[0]? = some body ∧ body.step = some step ∧
          step.newPositions.vector .two 0 = .ok ⟨0, 1, 0⟩ ∧
          step.newPositions.vector .two 2 = .ok ⟨0, 1, 0⟩ := by
  rcases exists_register_tippingSquare with ⟨c, registered⟩
  rcases standing_of_register rfl registered with ⟨standing, outside⟩
  have standing : c.Standing ⟨"square", 0, 1 / 10⟩ 1 fun _ body => body.Tips := by
    apply standing.imp
    rintro part body ⟨description, described, created⟩
    rw [List.mem_singleton.mp (List.mem_of_getElem? described)] at created
    exact tips_of_setUp created
  have tolerant : (0 : ℝ) ≤ 1 / 10 := by norm_num
  rcases standing.exists_structure Nat.one_pos with ⟨first, found, tips⟩
  rcases @Standing.serve_tips _ _ (c, SpreadTally.empty) _ standing outside rfl tolerant
    (AnalyticFlow.atRest .two) with ⟨opens, predicts, moves, tipped⟩
  rcases tipped.exists_structure Nat.one_pos with ⟨body, there, half, step, opened, left, right⟩
  refine ⟨c, first, registered, found, ?_, ?_, opens, predicts, moves, ?_, body, step, there,
    opened, left, right⟩
  · rw [tips.placed.vector_eq 0 (by decide)]
    rfl
  · rw [tips.placed.vector_eq 2 (by decide)]
    rfl
  · intro within
    have fits := within body (List.mem_of_getElem? there) .half
    rw [TimeLevels.get, half] at fits
    have flat : Real.pi / 2 = 0 := (RigidVelocity.fits_two_iff.mp fits).2.1
    linarith [Real.pi_pos]

end Coordinator

end ImmersedBody
