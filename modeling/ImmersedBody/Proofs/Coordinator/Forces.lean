import ImmersedBody.Proofs.Coordinator.Bodies
import ImmersedBody.Proofs.TimeStep.Handoff

/-!
# The half-time forces of a coordinator

`Holding` describes a coordinator on the only rank by what it holds for the
flow: the half-time force of every structure, whether a force is pending, and
whether a step is open.  Most operations leave all of this alone, whether they
succeed or stop.
-/

namespace ImmersedBody

open RigidStructure ImmersedBody.Action

variable {α σ : Type} {shape : Shape}

/-- Structures keep their forces if each of them does. -/
theorem RigidStructure.forall₂_of_getElem {bodies bodies' : List (RigidStructure shape α)}
    (length_eq : bodies'.length = bodies.length)
    (each : ∀ i (before : i < bodies.length) (after : i < bodies'.length),
      bodies'[i].Carries bodies[i].halfForce?) :
    List.Forall₂ (fun body after => after.Carries body.halfForce?) bodies bodies' := by
  apply List.forall₂_iff_get.mpr
  exact ⟨length_eq.symm, fun i before after => each i before after⟩

/-- The structures after one of them has changed and kept its force. -/
theorem RigidStructure.forall₂_set {bodies : List (RigidStructure shape α)} {part : Nat}
    {body after : RigidStructure shape α} (sound : ∀ body ∈ bodies, body.Sound)
    (found : bodies[part]? = some body) (kept : after.Carries body.halfForce?) :
    List.Forall₂ (fun body after => after.Carries body.halfForce?) bodies
      (bodies.set part after) := by
  apply forall₂_of_getElem List.length_set
  intro i before _
  rw [List.getElem_set]
  split
  next same =>
    subst same
    rw [List.getElem?_eq_getElem before, Option.some.injEq] at found
    rw [found]
    exact kept
  next =>
    exact ⟨sound _ (List.getElem_mem before), rfl⟩

namespace Coordinator

/-- The half-time forces of all structures; a structure has none outside of a step. -/
def halfForces (c : Coordinator shape α) : List (Option (NodalField α)) :=
  c.structures.map halfForce?

/-- What a coordinator on the only rank holds for the flow. -/
structure Holding (forces : List (Option (NodalField α))) (pending inStep : Bool)
    (c : Coordinator shape α) : Prop where
  serial : c.seat.size = 1
  sound : ∀ body ∈ c.structures, body.Sound
  forces_eq : c.halfForces = forces
  consistent : c.protocol.Consistent
  pending_eq : c.protocol.forcePending = pending
  inStep_eq : c.protocol.phase.inStep = inStep

namespace Holding

variable {forces : List (Option (NodalField α))} {pending inStep : Bool}
  {c after : Coordinator shape α}

/-- Only seat, structures and protocol matter. -/
theorem congr (holding : c.Holding forces pending inStep) (seat : after.seat = c.seat)
    (structures : after.structures = c.structures) (protocol : after.protocol = c.protocol) :
    after.Holding forces pending inStep where
  serial := by rw [seat, holding.serial]
  sound := by rw [structures]; exact holding.sound
  forces_eq := by rw [halfForces, structures]; exact holding.forces_eq
  consistent := by rw [protocol]; exact holding.consistent
  pending_eq := by rw [protocol, holding.pending_eq]
  inStep_eq := by rw [protocol, holding.inStep_eq]

theorem length_eq (holding : c.Holding forces pending inStep) :
    c.structures.length = forces.length := by
  rw [← holding.forces_eq, halfForces, List.length_map]

theorem force_eq (holding : c.Holding forces pending inStep) {part : Nat}
    {body : RigidStructure shape α} (found : c.structures[part]? = some body) :
    forces[part]? = some body.halfForce? := by
  rw [← holding.forces_eq, halfForces, List.getElem?_map, found]
  rfl

/-- Other structures, with the forces that they have. -/
theorem replace (holding : c.Holding forces pending inStep)
    {structures : List (RigidStructure shape α)} {forces' : List (Option (NodalField α))}
    (carried : List.Forall₂ RigidStructure.Carries forces' structures) :
    { c with structures }.Holding forces' pending inStep where
  serial := holding.serial
  sound := by
    intro body member
    rcases List.forall₂_iff_get.mp carried with ⟨length_eq, each⟩
    rcases List.getElem_of_mem member with ⟨i, inside, rfl⟩
    exact (each i (length_eq ▸ inside) inside).sound
  forces_eq := by
    show structures.map halfForce? = forces'
    induction carried with
    | nil =>
        rfl
    | cons first later ih =>
        rw [List.map_cons, ih, first.force_eq]
  consistent := holding.consistent
  pending_eq := holding.pending_eq
  inStep_eq := holding.inStep_eq

/-- Another structure in the place of one, with the force that it has. -/
theorem setStructure (holding : c.Holding forces pending inStep) {part : Nat}
    {after : RigidStructure shape α} {force : Option (NodalField α)}
    (carries : after.Carries force) :
    { c with structures := c.structures.set part after }.Holding (forces.set part force) pending
      inStep where
  serial := holding.serial
  sound := by
    intro body member
    rcases List.mem_or_eq_of_mem_set member with before | rfl
    · exact holding.sound body before
    · exact carries.sound
  forces_eq := by
    rw [halfForces, List.map_set, carries.force_eq, ← holding.forces_eq]
    rfl
  consistent := holding.consistent
  pending_eq := holding.pending_eq
  inStep_eq := holding.inStep_eq

/-- Another state of the protocol. -/
theorem protocol (holding : c.Holding forces pending inStep) {protocol : StepProtocol α}
    (consistent : protocol.Consistent) {pending' inStep' : Bool}
    (pending_eq : protocol.forcePending = pending') (inStep_eq : protocol.phase.inStep = inStep') :
    { c with protocol }.Holding forces pending' inStep' where
  serial := holding.serial
  sound := holding.sound
  forces_eq := holding.forces_eq
  consistent := consistent
  pending_eq := pending_eq
  inStep_eq := inStep_eq

theorem withProtocol (holding : c.Holding forces pending inStep) {protocol : StepProtocol α}
    (same : c.protocol.SameHandoff protocol) :
    { c with protocol }.Holding forces pending inStep :=
  holding.protocol same.consistent (same.pending_eq.trans holding.pending_eq)
    (same.inStep_eq.trans holding.inStep_eq)

theorem withStructures (holding : c.Holding forces pending inStep)
    {structures : List (RigidStructure shape α)}
    (kept : List.Forall₂ (fun body after => after.Carries body.halfForce?) c.structures
      structures) :
    { c with structures }.Holding forces pending inStep := by
  apply holding.replace
  rw [← holding.forces_eq, halfForces, List.forall₂_map_left_iff]
  exact kept

theorem carries (holding : c.Holding forces pending inStep) {body : RigidStructure shape α}
    (member : body ∈ c.structures) : body.Carries body.halfForce? :=
  ⟨holding.sound body member, rfl⟩

/-- Operations of the protocol that do not touch the hand-off. -/
theorem ends_committing {β : Type} (holding : c.Holding forces pending inStep)
    {operation : StepProtocol α → Except (Violation α) (StepOutcome α β)}
    (same : ∀ outcome, operation c.protocol = .ok outcome →
      c.protocol.SameHandoff outcome.protocol) :
    (committing operation : Work shape α β).Ends c
      (fun _ after => after.Holding forces pending inStep)
      fun after => after.Holding forces pending inStep := by
  rw [Coordinator.ends_committing]
  cases outcome : operation c.protocol with
  | error violation =>
      exact holding
  | ok result =>
      exact holding.withProtocol (same result outcome)

/-- Work on all structures that does not touch their forces. -/
theorem ends_forStructures (holding : c.Holding forces pending inStep)
    {action : Nat → Action α (RigidStructure shape α × σ) Unit}
    (each : ∀ part body state, body ∈ c.structures →
      (action part).Ends (body, state) (fun _ after => after.1.Carries body.halfForce?)
        fun after => after.1.Carries body.halfForce?)
    (state : σ) :
    (forStructures action).Ends (c, state)
      (fun _ after => after.1.Holding forces pending inStep)
      fun after => after.1.Holding forces pending inStep := by
  apply Coordinator.ends_forStructures (fun _ body after => after.Carries body.halfForce?)
    (fun _ body after => after.Carries body.halfForce?) (fun _ _ => True) (fun _ => True)
  · intro part body state member _
    have inside : body ∈ c.structures :=
      List.mem_of_getElem? (List.mk_mem_zipIdx_iff_getElem?.mp member)
    exact (each part body state inside).imp (fun _ _ kept => ⟨kept, trivial⟩)
      fun _ kept => ⟨kept, trivial⟩
  · trivial
  · intro structures state finished _
    exact holding.withStructures (finished.forall₂ fun _ _ _ kept => kept)
  · intro structures state stopped _
    exact holding.withStructures (stopped.forall₂ (fun _ _ _ kept => kept)
      (fun _ _ _ kept => kept) fun body member => holding.carries member)

theorem ends_forEachStructure (holding : c.Holding forces pending inStep)
    {action : Nat → Action α (RigidStructure shape α) Unit}
    (each : ∀ part, ∀ body ∈ c.structures,
      (action part).Ends body (fun _ after => after.Carries body.halfForce?)
        fun after => after.Carries body.halfForce?) :
    (forEachStructure action).Ends c (fun _ after => after.Holding forces pending inStep)
      fun after => after.Holding forces pending inStep := by
  apply Coordinator.ends_forEachStructure (fun _ body after => after.Carries body.halfForce?)
    fun _ body after => after.Carries body.halfForce?
  · intro part body member
    exact each part body (List.mem_of_getElem? (List.mk_mem_zipIdx_iff_getElem?.mp member))
  · intro structures finished
    exact holding.withStructures (finished.forall₂ fun _ _ _ kept => kept)
  · intro structures stopped
    exact holding.withStructures (stopped.forall₂ (fun _ _ _ kept => kept)
      (fun _ _ _ kept => kept) fun body member => holding.carries member)

end Holding

/-! ## Operations that touch nothing of this -/

/-- Work after which the coordinator holds what it held before, also if the work stops. -/
def Leaves {β : Type} (work : Work shape α β) : Prop :=
  ∀ c forces pending inStep, c.Holding forces pending inStep →
    work.Ends c (fun _ after => after.Holding forces pending inStep)
      fun after => after.Holding forces pending inStep

variable {β γ : Type}

theorem leaves_bind {work : Work shape α β} {f : β → Work shape α γ} (first : Leaves work)
    (later : ∀ value, Leaves (f value)) : Leaves (work >>= f) := by
  intro c forces pending inStep holding
  rw [ends_bind]
  apply (first c forces pending inStep holding).imp
  · intro value after between
    exact later value after forces pending inStep between
  · exact fun _ stopped => stopped

theorem leaves_pure (value : β) : Leaves (pure value : Work shape α β) :=
  fun _ _ _ _ holding => holding

theorem leaves_get : Leaves (get : Work shape α (Coordinator shape α)) :=
  fun _ _ _ _ holding => holding

theorem leaves_refuse (cause : Cause α) : Leaves (Action.refuse cause : Work shape α β) :=
  fun _ _ _ _ holding => holding

theorem leaves_tell (notices : List (Notice α)) : Leaves (Action.tell notices : Work shape α Unit) := by
  intro c forces pending inStep holding
  rw [ends_tell]
  exact holding

theorem leaves_checking {what : Attempt}
    {check : Coordinator shape α → Except (Violation α) β} : Leaves (checking what check) := by
  intro c forces pending inStep holding
  rw [ends_checking]
  cases check c <;> exact holding

theorem leaves_attempting {what : Attempt} {work : Work shape α β} (leaves : Leaves work) :
    Leaves (attempting what work) := by
  intro c forces pending inStep holding
  rw [ends_attempting]
  exact leaves c forces pending inStep holding

/-- Changes of anything but seat, structures and protocol. -/
theorem leaves_modify {change : Coordinator shape α → Coordinator shape α}
    (seat : ∀ c, (change c).seat = c.seat) (structures : ∀ c, (change c).structures = c.structures)
    (protocol : ∀ c, (change c).protocol = c.protocol) :
    Leaves (modify change : Work shape α Unit) := by
  intro c forces pending inStep holding
  rw [ends_modify]
  exact holding.congr (seat c) (structures c) (protocol c)

/-- Changes of single structures that keep their layout and the fields of the step. -/
theorem leaves_modifyStructures
    {change : List (RigidStructure shape α) → List (RigidStructure shape α)}
    (kept : ∀ structures, (∀ body ∈ structures, body.Sound) →
      List.Forall₂ (fun body after => after.Carries body.halfForce?) structures
        (change structures)) :
    Leaves (modify fun c : Coordinator shape α => { c with structures := change c.structures }) := by
  intro c forces pending inStep holding
  rw [ends_modify]
  exact holding.withStructures (kept c.structures holding.sound)

theorem leaves_onStructure {part : Nat} {action : Action α (RigidStructure shape α) β}
    (each : ∀ body : RigidStructure shape α, body.Sound →
      action.Ends body (fun _ after => after.Carries body.halfForce?)
        fun after => after.Carries body.halfForce?) :
    Leaves (onStructure part action) := by
  intro c forces pending inStep holding
  rw [ends_onStructure]
  cases found : c.structures[part]? with
  | none =>
      exact holding
  | some body =>
      apply (each body (holding.sound body (List.mem_of_getElem? found))).imp
      · intro _ after kept
        exact holding.withStructures (forall₂_set holding.sound found kept)
      · intro after kept
        exact holding.withStructures (forall₂_set holding.sound found kept)

/-- Changes of the rigid velocity of one structure. -/
theorem leaves_changeStructure {part : Nat}
    {change : RigidStructure shape α → RigidStructure shape α}
    (kept : ∀ body force, body.Carries force → (change body).Carries force) :
    Leaves (changeStructure part change) := by
  apply leaves_modifyStructures
  intro structures sound
  apply forall₂_of_getElem (List.length_modify _ _ _)
  intro i before _
  have same : structures[i].Carries structures[i].halfForce? :=
    ⟨sound _ (List.getElem_mem before), rfl⟩
  rw [List.getElem_modify]
  split
  · exact kept _ _ same
  · exact same

theorem leaves_skipForce {time : α} : Leaves (skipForce time : Work shape α Unit) :=
  leaves_bind leaves_get fun _ => leaves_tell _

theorem length_of_checkCompatible {record : RestartRecord α} {objectName : String}
    {count : Nat} (compatible : record.checkCompatible objectName count = .ok ()) :
    record.velocities.length = count := by
  rw [RestartRecord.checkCompatible, bind_eq_ok_iff] at compatible
  rcases compatible with ⟨_, -, named⟩
  by_contra different
  split_ifs at named

theorem leaves_restore {record : RestartRecord α} :
    Leaves (restore record : Work shape α Unit) := by
  intro c forces pending inStep holding
  rw [restore, ends_bind, ends_get, ends_ite]
  split
  · exact holding
  · cases compatible : record.checkCompatible c.name c.count with
    | error refused =>
        simp only [ends_attempt, ends_refuse]
        exact holding
    | ok _ =>
        have enough := length_of_checkCompatible compatible
        simp only [ends_bind, ends_modify, ends_tell]
        apply holding.withStructures
        apply forall₂_of_getElem
        · rw [List.length_zipWith, enough, count, Nat.min_self]
        · intro i before after
          rw [List.getElem_zipWith]
          exact (holding.carries (List.getElem_mem before)).congr rfl rfl rfl rfl rfl rfl

section

variable [Scalar α]

theorem leaves_updateMass : Leaves (updateMass : Work shape α Unit) := by
  intro c forces pending inStep holding
  rw [updateMass, ends_bind, ends_get]
  apply holding.ends_forEachStructure
  intro part body member
  exact ends_computeMass (holding.carries member)

theorem leaves_prepare : Leaves (prepare : Work shape α Unit) := by
  apply leaves_bind leaves_get
  intro c
  split
  · exact leaves_pure ()
  · apply leaves_bind leaves_updateMass
    intro _
    apply leaves_bind leaves_get
    intro described
    apply leaves_bind (leaves_tell _)
    intro _
    exact leaves_modify (fun _ => rfl) (fun _ => rfl) fun _ => rfl

theorem leaves_requestInterpolation {time : α} :
    Leaves (requestInterpolation time : Work shape α Unit) := by
  apply leaves_attempting
  intro c forces pending inStep holding
  apply holding.ends_committing
  intro outcome requested
  exact StepProtocol.sameHandoff_of_requestInterpolation holding.consistent requested

theorem leaves_advance {rule : AdvanceRule} {current new : α} :
    Leaves (advance rule current new : Work shape α Unit) := by
  intro c forces pending inStep holding
  rw [advance, ends_bind, ends_get, ends_bind]
  apply (leaves_checking c forces pending inStep holding).imp _ fun _ stopped => stopped
  intro _ checked holding'
  rw [ends_bind, ends_attempting]
  have committed : (committing (fun p : StepProtocol α => p.advance rule) :
      Work shape α (StepWindow α)).Ends checked
      (fun _ after => after.Holding forces pending inStep)
      fun after => after.Holding forces pending inStep := by
    apply holding'.ends_committing
    intro outcome advanced
    exact StepProtocol.sameHandoff_of_advance advanced
  apply committed.imp _ fun _ stopped => stopped
  intro window opened holding''
  cases rule with
  | forwardEuler =>
      have moved : (forEachStructure
            (predict c.seat c.name c.settings.quadratureOrder window)).Ends opened
          (fun _ after => after.Holding forces pending inStep)
          fun after => after.Holding forces pending inStep := by
        apply holding''.ends_forEachStructure
        intro part body member
        exact ends_predict holding.serial (holding''.carries member)
      simp only [ends_bind]
      apply moved.imp _ fun _ stopped => stopped
      exact fun _ after done => leaves_tell _ after forces pending inStep done
  | midpoint =>
      have moved : (forEachStructure (update c.seat window)).Ends opened
          (fun _ after => after.Holding forces pending inStep)
          fun after => after.Holding forces pending inStep := by
        apply holding''.ends_forEachStructure
        intro part body member
        exact ends_update holding.serial (holding''.carries member)
      simp only [ends_bind]
      apply moved.imp _ fun _ stopped => stopped
      exact fun _ after done => leaves_tell _ after forces pending inStep done
  | trapezoidal =>
      exact leaves_tell _ opened forces pending inStep holding''

theorem leaves_changeForces {time : α} {change : CompositeField α → CompositeField α} :
    Leaves (changeForces time change : Work shape α (Option (CompositeField α))) := by
  intro c forces pending inStep holding
  rw [changeForces, ends_bind, ends_get, ends_bind, ends_checking]
  cases c.protocol.queryForce time with
  | error violation =>
      exact holding
  | ok level =>
      cases level with
      | none =>
          simp only [ends_bind, ends_tell, ends_pure]
          exact holding
      | some level =>
          cases found : c.forcesAt level with
          | none =>
              simp only [found, ends_refuse]
              exact holding
          | some current =>
              simp only [found, ends_bind, ends_set, ends_pure]
              cases level <;> exact holding.congr rfl rfl rfl

theorem leaves_updateVelocity {part : Nat} {dofs : Vector α shape.dim.rigidSize} :
    Leaves (updateVelocity part dofs : Work shape α Unit) := by
  apply leaves_bind leaves_checking
  intro _
  apply leaves_changeStructure
  intro body force carries
  exact carries.congr rfl rfl rfl rfl rfl rfl

omit [Scalar α] in
theorem leaves_setVelocity {part : Nat} {velocity : RigidVelocity α} :
    Leaves (setVelocity part velocity : Work shape α Unit) := by
  apply leaves_bind leaves_checking
  intro _
  apply leaves_bind leaves_get
  intro c
  split
  · exact leaves_refuse _
  · apply leaves_bind leaves_checking
    intro _
    apply leaves_changeStructure
    intro body force carries
    exact carries.congr rfl rfl rfl rfl rfl rfl

/-! ## Operations with a state of their own -/

/-- Setting the velocity of a structure, with the composite that it is copied into. -/
theorem ends_setBodyVelocity {part : Nat} {dofs : Vector α shape.dim.rigidSize}
    {c : Coordinator shape α} {composite : CompositeField α}
    {forces : List (Option (NodalField α))} {pending inStep : Bool}
    (holding : c.Holding forces pending inStep) :
    (setBodyVelocity part dofs).Ends (c, composite)
      (fun _ after => after.1.Holding forces pending inStep)
      fun after => after.1.Holding forces pending inStep := by
  rw [setBodyVelocity, ends_of, Task.alone_bind]
  have expanded : (do
      let window ← checking .setBodyVelocity fun c => do
        c.checkPart part
        c.checkParts composite
        c.protocol.check .setVelocity
      onStructure part (expandVelocity c.seat c.name part (.ofDofs shape.dim dofs) window.new) :
        Work shape α (Option (NodalField α))).Ends c
      (fun _ after => after.Holding forces pending inStep)
      fun after => after.Holding forces pending inStep := by
    rw [ends_bind]
    apply (leaves_checking c forces pending inStep holding).imp _ fun _ stopped => stopped
    intro window checked holding'
    apply leaves_onStructure _ checked forces pending inStep holding'
    intro body sound
    exact ends_expandVelocity holding.serial ⟨sound, rfl⟩
  have recorded : ∀ c : Coordinator shape α, c.Holding forces pending inStep →
      (committing (fun p => p.record .setVelocity) : Work shape α (StepWindow α)).Ends c
        (fun _ after => after.Holding forces pending inStep)
        fun after => after.Holding forces pending inStep := by
    intro c holding
    apply holding.ends_committing
    intro outcome accepted
    exact StepProtocol.sameHandoff_of_record (Or.inr rfl) accepted
  rw [Ends, Action.alone] at expanded
  generalize (on _ c).alone = result at *
  rcases result with ⟨_ | velocity, after⟩
  · exact expanded
  · cases velocity with
    | none =>
        exact expanded
    | some velocity =>
        cases composite.parts[part]? with
        | none =>
            exact expanded
        | some target =>
            cases copied : target.copyFrom velocity with
            | error refused =>
                simp only [copied]
                exact expanded
            | ok field =>
                have last := recorded after expanded
                rw [Ends, Action.alone] at last
                simp only [copied, Task.alone_bind]
                generalize (on _ after).alone = result at *
                rcases result with ⟨_ | window, final⟩ <;> exact last

/-- Interpolating the velocity of the flow. -/
theorem ends_interpolate {flow : FlowTransfer α σ} {time : α} {c : Coordinator shape α}
    {state : σ} {forces : List (Option (NodalField α))} {pending inStep : Bool}
    (holding : c.Holding forces pending inStep) :
    (interpolate flow time).Ends (c, state)
      (fun _ after => after.1.Holding forces pending inStep)
      fun after => after.1.Holding forces pending inStep := by
  rw [interpolate]
  simp only [ends_bind, ends_get, ends_first, ends_checking, ends_attempting]
  cases (do
      let window ← c.protocol.check .interpolateVelocity
      c.levelOf .interpolateVelocity window time) with
  | error violation =>
      exact holding
  | ok level =>
      have consumed : (committing StepProtocol.consumeRequest : Work shape α Bool).Ends c
          (fun _ after => after.Holding forces pending inStep)
          fun after => after.Holding forces pending inStep := by
        apply holding.ends_committing
        intro outcome accepted
        exact StepProtocol.sameHandoff_of_consumeRequest holding.consistent accepted
      apply consumed.imp _ fun _ stopped => stopped
      intro requested after holding'
      rw [ends_ite]
      split
      · apply holding'.ends_forStructures
        intro part body state member
        exact ends_interpolateOnto holding.serial (holding'.carries member)
      · exact holding'

/-! ## Registration -/

section

variable {settings : Settings α} {descriptions : List (StructureDescription shape α)} {seat : Seat}

/-- Every structure is set up from its description. -/
theorem forall₂_of_setUpAll {objectName : String} :
    ∀ {part : Nat} {bodies : List (RigidStructure shape α)},
      setUpAll objectName seat part descriptions = .ok bodies →
        List.Forall₂ (fun description body => RigidStructure.setUp description seat = .ok body)
          descriptions bodies := by
  induction descriptions with
  | nil =>
      intro part bodies created
      cases created
      exact .nil
  | cons description descriptions ih =>
      intro part bodies created
      simp only [setUpAll, bind_eq_ok_iff, pure_eq_ok_iff] at created
      rcases created with ⟨first, made, others, later, rfl⟩
      apply List.Forall₂.cons _ (ih later)
      cases placed : RigidStructure.setUp description seat with
      | error stop =>
          rw [placed] at made
          cases made
      | ok body =>
          rw [placed] at made
          exact made

/-- A registered coordinator has structures that are set up from their descriptions. -/
theorem exists_bodies_of_register {c : Coordinator shape α}
    (registered : (register settings descriptions seat).alone = .ok c) :
    ∃ bodies, List.Forall₂ (fun description body =>
        RigidStructure.setUp description seat = .ok body) descriptions bodies ∧
      c = {
        settings, seat
        structures := bodies
        protocol := .initial settings.timeTolerance
        currentForces := none
        newForces := none
        listeners := []
        initialized := false } := by
  rw [register] at registered
  cases checked : settings.check with
  | error fault =>
      rw [checked] at registered
      cases registered
  | ok _ =>
      rw [checked] at registered
      simp only [Collective.alone_bind, Collective.alone_mk_pure, Collective.alone_lift]
        at registered
      cases created : setUpAll settings.objectName seat 0 descriptions with
      | error stop =>
          rw [created] at registered
          cases registered
      | ok bodies =>
          rw [created] at registered
          cases registered
          exact ⟨bodies, forall₂_of_setUpAll created, rfl⟩

/-- Registered structures are sound, and no step is open. -/
theorem holding_of_register (serial : seat.size = 1) {c : Coordinator shape α}
    (registered : (register settings descriptions seat).alone = .ok c) :
    c.Holding (c.structures.map fun _ => none) false false := by
  rcases exists_bodies_of_register registered with ⟨bodies, made, rfl⟩
  have carries : ∀ body ∈ bodies, body.Carries none := by
    intro body member
    rcases List.getElem_of_mem member with ⟨part, inside, rfl⟩
    exact carries_of_setUp serial (made.get (made.length_eq ▸ inside) inside)
  exact {
    serial := serial
    sound := fun body member => (carries body member).sound
    forces_eq := List.map_congr_left fun body member => (carries body member).force_eq
    consistent := StepProtocol.consistent_initial _
    pending_eq := rfl
    inStep_eq := rfl }

end

end

end Coordinator

end ImmersedBody
