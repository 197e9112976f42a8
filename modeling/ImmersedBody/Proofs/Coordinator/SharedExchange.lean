import ImmersedBody.Proofs.Coordinator.Forces
import ImmersedBody.Proofs.Coordinator.Shared

/-!
# Exchange of a team

The members of a team exchange velocities and forces with the flow and with the
constraint solver.  Composites come from the coordinator that the members share,
so they are shared as well, and the part of a composite fits the structure with
its number.
-/

namespace ImmersedBody

open ImmersedBody.Action

variable {α σ β γ : Type} [Scalar α] {shape : Shape} {p : Nat}
variable {settings : Settings α} {descriptions : List (StructureDescription shape α)}

namespace SharedCoordinator

variable {coordinators : Team p → Coordinator shape α}

theorem same_checkPart (shared : SharedCoordinator settings descriptions coordinators)
    (part : Nat) : Same fun member => (coordinators member).checkPart part := by
  intro member
  simp only [Coordinator.checkPart, shared.count]

theorem same_checkParts (shared : SharedCoordinator settings descriptions coordinators)
    {composites : Team p → CompositeField α} (composite : SharedComposite descriptions composites) :
    Same fun member => (coordinators member).checkParts (composites member) := by
  intro member
  simp only [Coordinator.checkParts, shared.count, composite.length_eq]

theorem same_checkFree (shared : SharedCoordinator settings descriptions coordinators)
    (part : Nat) : Same fun member => (coordinators member).checkFree part := by
  intro member
  cases inside : descriptions[part]? with
  | none =>
      simp only [Coordinator.checkFree, shared.structures.getElem?_eq_none inside]
  | some description =>
      rcases shared.exists_structure inside with ⟨bodies, found, row, -⟩
      simp only [Coordinator.checkFree, found, row.motion]

theorem same_levelOf (shared : SharedCoordinator settings descriptions coordinators)
    (operation : Operation) (window : StepWindow α) (time : α) :
    Same fun member => (coordinators member).levelOf operation window time := by
  intro member
  simp only [Coordinator.levelOf, shared.settings]

end SharedCoordinator

namespace Coordinator

/-! ## Exchange with a flow -/

/-- Work with a flow that keeps a coordinator of a team shared. -/
def SharedExchange (settings : Settings α) (descriptions : List (StructureDescription shape α))
    (works : Team p → Action α (Coordinator shape α × σ) β) (post : (Team p → β) → Prop) : Prop :=
  ∀ states, (SharedCoordinator settings descriptions fun member => (states member).1) →
    Joint works states
      (fun values after => post values ∧
        SharedCoordinator settings descriptions fun member => (after member).1)
      fun after => SharedCoordinator settings descriptions fun member => (after member).1

theorem sharedExchange_bind {works : Team p → Action α (Coordinator shape α × σ) β}
    {f : Team p → β → Action α (Coordinator shape α × σ) γ} {post : (Team p → β) → Prop}
    {post' : (Team p → γ) → Prop} (first : SharedExchange settings descriptions works post)
    (later : ∀ values, post values →
      SharedExchange settings descriptions (fun member => f member (values member)) post') :
    SharedExchange settings descriptions (fun member => works member >>= f member) post' := by
  intro states shared
  apply joint_bind (first states shared)
  rintro values after ⟨good, shared⟩
  exact later values good after shared

theorem sharedExchange_first {works : Team p → Work shape α β} {post : (Team p → β) → Prop}
    (work : SharedWork settings descriptions works post) :
    SharedExchange settings descriptions
      (fun member => (Action.first (works member) : Action α (Coordinator shape α × σ) β)) post :=
  fun states shared =>
    joint_first (fun member => (states member).2) (work _ shared)

/-- Work on demand stays shared if the check says the same to all members. -/
theorem sharedExchange_onDemand {what : Attempt}
    {check : Coordinator shape α → Except (Violation α) β}
    {consume : StepProtocol α → Except (Violation α) (StepOutcome α Bool)}
    {each : Coordinator shape α → β → Nat → Action α (RigidStructure shape α × σ) Unit}
    (checked : ∀ coordinators : Team p → Coordinator shape α,
      SharedCoordinator settings descriptions coordinators →
        Same fun member => check (coordinators member))
    (joint : ∀ coordinators : Team p → Coordinator shape α,
      SharedCoordinator settings descriptions coordinators →
        ∀ value description part bodies (others : Team p → σ),
          descriptions[part]? = some description → SharedStructure description bodies →
            Joint (fun member => each (coordinators member) value part)
              (fun member => (bodies member, others member))
              (fun _ after => SharedStructure description fun member => (after member).1)
              fun after => SharedStructure description fun member => (after member).1) :
    SharedExchange settings descriptions
      (fun _ : Team p => onDemand what check consume each) Same := by
  intro states shared
  apply joint_bind joint_get
  rintro _ _ ⟨rfl, rfl⟩
  refine sharedExchange_bind (sharedExchange_first (sharedWork_checking checked)) ?_ states shared
  intro values same
  rw [same.eq]
  refine sharedExchange_bind (sharedExchange_first
    (sharedWork_attempting (sharedWork_committing _))) fun demanded same => ?_
  rw [same.eq]
  intro between shared'
  beta_reduce
  split
  · apply (joint_forStructures _ shared' fun member => (between member).2).weaken
    · exact fun _ _ shared => ⟨fun _ => rfl, shared⟩
    · exact joint _ shared _
  · apply (joint_pure _).weaken
    rintro _ _ ⟨rfl, rfl⟩
    exact ⟨fun _ => rfl, shared'⟩

/-- All members sample a velocity field on all structures, if that was requested. -/
theorem sharedExchange_interpolate (someone : 0 < p) (field : Vec3 α → α → Vec3 α) (time : α) :
    SharedExchange settings descriptions
      (fun _ : Team p => interpolate (AnalyticFlow.transfer shape.dim field) time) Same := by
  simp only [interpolate_eq_onDemand]
  apply sharedExchange_onDemand
  · intro coordinators shared member
    simp only [checkSample, shared.protocol member, shared.same_levelOf _ _ _ member]
  · intro coordinators shared level description part bodies tallies inside row
    simp only [shared.name, shared.seat]
    exact row.joint_interpolateOnto someone _ field _ time part tallies

/-- All members add up the forces on all structures, if some were set. -/
theorem sharedExchange_spread (field : Vec3 α → α → Vec3 α) (time : α) :
    SharedExchange settings descriptions
      (fun _ : Team p => spread (AnalyticFlow.transfer shape.dim field) time) Same := by
  simp only [spread_eq_onDemand]
  apply sharedExchange_onDemand
  · intro coordinators shared member
    simp only [checkSpread, shared.protocol member, shared.same_levelOf _ _ _ member]
  · intro coordinators shared level description part bodies tallies inside row
    simp only [shared.name]
    exact row.joint_spreadFrom _ field _ time part tallies

/-! ## Velocities in a composite -/

theorem exists_copyVelocities (factor : α) {structures : Team p → List (RigidStructure shape α)}
    (columns : Columns SharedStructure descriptions structures) :
    ∀ {targets : Team p → List (NodalField α)} (part : Nat),
      Columns (fun description => SharedField description.mesh) descriptions targets →
        ∃ outcome parts,
          (∀ member, copyVelocities factor part (structures member) (targets member) =
            (outcome, parts member)) ∧
          (∀ stop, outcome = .error stop → stop.IsRefusal) ∧
          Columns (fun description => SharedField description.mesh) descriptions parts := by
  induction columns with
  | nil =>
      rintro _ part ⟨⟩
      exact ⟨.ok (), _, fun _ => rfl, nofun, .nil⟩
  | @cons description descriptions bodies structures row columns ih =>
      rintro _ part (_ | @⟨_, _, fields, targets, field, targetColumns⟩)
      rcases row.stepFields part with refused | ⟨steps, read, sharedStep⟩
      · refine ⟨.error (.because (.noStepData part)), fun member => fields member :: targets member,
          ?_, ?_, .cons field targetColumns⟩
        · intro member
          simp only [copyVelocities, refused]
        · rintro _ ⟨⟩
          trivial
      · rcases ih (part + 1) targetColumns with ⟨outcome, parts, copied, refusals, rest⟩
        refine ⟨outcome, fun member => (steps member).halfVelocity.scale factor :: parts member,
          ?_, refusals, .cons (sharedStep.halfVelocity.scale factor) rest⟩
        intro member
        have taken : (fields member).copyFrom (steps member).halfVelocity =
            .ok (steps member).halfVelocity := field.copyFrom sharedStep.halfVelocity member
        simp only [copyVelocities, read, taken, copied]

/-- All members read the velocities into a composite, or all are refused for one reason. -/
theorem exists_readVelocities {coordinators : Team p → Coordinator shape α}
    (shared : SharedCoordinator settings descriptions coordinators)
    {composites : Team p → CompositeField α} (composite : SharedComposite descriptions composites)
    (time factor : α) :
    ∃ afters : Team p → CompositeField α, SharedComposite descriptions afters ∧
      ((∀ member, (coordinators member).readVelocities time factor (composites member) =
          .ok () (afters member)) ∨
        ∃ stop, stop.IsRefusal ∧ ∀ member,
          (coordinators member).readVelocities time factor (composites member) =
            .error stop (afters member)) := by
  have same : ∀ member, (do
        (coordinators member).protocol.queryVelocity time
        (coordinators member).checkParts (composites member) : Except (Violation α) Unit) =
      (do (coordinators none).protocol.queryVelocity time
          (coordinators none).checkParts (composites none)) := by
    intro member
    simp only [shared.protocol member, shared.same_checkParts composite member]
  rcases exists_copyVelocities factor shared.structures 0 composite with
    ⟨outcome, parts, copied, refusals, columns⟩
  cases checked : (do
      (coordinators none).protocol.queryVelocity time
      (coordinators none).checkParts (composites none) : Except (Violation α) Unit) with
  | error violation =>
      refine ⟨composites, composite, Or.inr ⟨.within settings.objectName .getVelocity
        (.because (.violation violation)), trivial, ?_⟩⟩
      intro member
      rw [readVelocities, same, checked, shared.name]
  | ok _ =>
      refine ⟨fun member => ⟨parts member⟩, columns, ?_⟩
      cases outcome with
      | ok _ =>
          left
          intro member
          simp only [readVelocities, same, checked, copied]
      | error stop =>
          refine Or.inr ⟨stop, refusals stop rfl, ?_⟩
          intro member
          simp only [readVelocities, same, checked, copied]

/-! ## Constraint forces -/

theorem exists_matchForces (objectName : String)
    {structures : Team p → List (RigidStructure shape α)}
    (columns : Columns SharedStructure descriptions structures) :
    ∀ {forces : Team p → List (NodalField α)} (part : Nat),
      Columns (fun description => SharedField description.mesh) descriptions forces →
        ∃ outcome : Except (Stop α) Unit,
          (∀ member, matchForces objectName part (structures member) (forces member) = outcome) ∧
          ∀ stop, outcome = .error stop → stop.IsRefusal := by
  induction columns with
  | nil =>
      rintro _ part ⟨⟩
      exact ⟨.ok (), fun _ => rfl, nofun⟩
  | @cons description descriptions bodies structures row columns ih =>
      rintro _ part (_ | @⟨_, _, fields, forces, field, forceColumns⟩)
      rcases row.stepFields part with refused | ⟨steps, read, sharedStep⟩
      · refine ⟨.error (.because (.noStepData part)), ?_, ?_⟩
        · intro member
          simp only [matchForces, refused]
          rfl
        · rintro _ ⟨⟩
          trivial
      · rcases ih (part + 1) forceColumns with ⟨outcome, matched, refusals⟩
        refine ⟨outcome, ?_, refusals⟩
        intro member
        have fits : (steps member).halfForce.compatible (fields member) = true := by
          have layouts : (steps member).halfForce.layout = (fields member).layout :=
            sharedStep.halfForce.layout_eq field member
          rw [NodalField.compatible, layouts, beq_self_eq_true]
        simp only [matchForces, read, bind, Except.bind, fits, if_pos, matched]

theorem sharedWork_setForce (someone : 0 < p) {composites : Team p → CompositeField α}
    (composite : SharedComposite descriptions composites) (time factor : α) :
    SharedWork settings descriptions
      (fun member : Team p => setForce (composites member) time factor) Same := by
  apply sharedWork_get
  intro coordinators shared
  simp only [shared.name, shared.seat]
  rcases exists_matchForces settings.objectName shared.structures 0 composite with
    ⟨outcome, matched, refusals⟩
  simp only [matched]
  refine sharedWork_bind (sharedWork_checking ?_) (fun _ _ => ?_) coordinators shared
  · intro coordinators shared member
    simp only [shared.protocol member, shared.same_checkParts composite member]
  apply sharedWork_bind
  · show SharedWork settings descriptions
      (fun _ => Action.of fun c => .done (outcome, c)) fun _ => True
    intro coordinators shared
    cases outcome with
    | ok value =>
        exact .done (Or.inl ⟨_, _, rfl, trivial, shared⟩)
    | error stop =>
        exact .done (Or.inr ⟨stop, _, refusals stop rfl, rfl, shared⟩)
  intro _ _
  apply sharedWork_bind
  · apply sharedWork_forEachStructure
    intro description part bodies inside row
    rcases composite.exists_row inside with ⟨sources, given, source, -⟩
    exact row.joint_storeForce someone given source factor
  intro _ _
  apply sharedWork_bind (sharedWork_attempting (sharedWork_committing _))
  intro _ _
  exact sharedWork_pure fun _ => rfl

theorem forcesAt_shared {coordinators : Team p → Coordinator shape α}
    (shared : SharedCoordinator settings descriptions coordinators) (level : TimeLevel) :
    SharedForces descriptions fun member => (coordinators member).forcesAt level := by
  cases level with
  | current =>
      exact shared.currentForces
  | half =>
      exact Or.inl fun _ => rfl
  | new =>
      exact shared.newForces

theorem withForcesAt_shared {coordinators : Team p → Coordinator shape α}
    (shared : SharedCoordinator settings descriptions coordinators) (level : TimeLevel)
    {composites : Team p → CompositeField α} (composite : SharedComposite descriptions composites) :
    SharedCoordinator settings descriptions fun member =>
      (coordinators member).withForcesAt level (composites member) := by
  have allocated : SharedForces descriptions fun member => some (composites member) :=
    Or.inr ⟨_, fun _ => rfl, composite⟩
  cases level with
  | current =>
      exact { shared with currentForces := allocated }
  | half =>
      exact shared
  | new =>
      exact { shared with newForces := allocated }

/-- The composite that is handed out is shared, and so is what the callers make of it. -/
theorem sharedWork_changeForces (time : α) {change : CompositeField α → CompositeField α}
    (keeps : ∀ composites : Team p → CompositeField α, SharedComposite descriptions composites →
      SharedComposite descriptions fun member => change (composites member)) :
    SharedWork settings descriptions (fun _ : Team p => changeForces time change)
      (SharedForces descriptions) := by
  apply sharedWork_get
  intro coordinators shared
  simp only [shared.name]
  refine sharedWork_bind (sharedWork_checking ?_) (fun levels same => ?_) coordinators shared
  · intro coordinators shared member
    simp only [shared.protocol member]
  rw [same.eq]
  cases levels none with
  | none =>
      apply sharedWork_bind (sharedWork_tell _)
      intro _ _
      exact sharedWork_pure (Or.inl fun _ => rfl)
  | some level =>
      intro _ between
      rcases forcesAt_shared shared level with without | ⟨composites, found, composite⟩
      · simp only [without]
        exact joint_refuse trivial between
      · simp only [found]
        apply joint_bind (joint_set _)
        rintro _ _ rfl
        apply (joint_pure _).weaken
        rintro _ _ ⟨rfl, rfl⟩
        exact ⟨Or.inr ⟨_, fun _ => rfl, keeps composites composite⟩,
          withForcesAt_shared shared level (keeps composites composite)⟩

/-- All members find the same net force of a force that fits the structure. -/
theorem sharedWork_computeForce (someone : 0 < p) (part : Nat) {forces : Team p → NodalField α}
    (fits : ∀ description, descriptions[part]? = some description →
      SharedField description.mesh forces) :
    SharedWork settings descriptions
      (fun member : Team p => computeForce part (forces member)) Same := by
  apply sharedWork_get
  intro coordinators shared
  simp only [shared.name, shared.seat, shared.settings]
  refine sharedWork_bind (sharedWork_checking ?_) (fun _ _ => ?_) coordinators shared
  · intro coordinators shared member
    simp only [shared.protocol member, shared.same_checkPart part member]
  apply sharedWork_bind
  · apply sharedWork_onStructure
    intro description bodies inside row
    exact row.joint_integrateForce someone (fits description inside) _ _ part
  intro found given
  have same : Same found := by
    rcases given with ⟨-, rfl⟩ | ⟨_, values, -, same, rfl⟩
    · exact same_const _
    · exact same.map some
  apply sharedWork_bind (sharedWork_committing _)
  intro _ _
  exact sharedWork_pure same

theorem sharedWork_skipForce (time : α) :
    SharedWork settings descriptions (fun _ : Team p => skipForce time) Same := by
  apply sharedWork_get
  intro coordinators shared
  exact sharedWork_tell _ coordinators shared

/-! ## Rigid velocities -/

/--
All members expand the velocity of a structure and copy it into their parts of a
composite, or all are refused for one reason.
-/
theorem joint_setBodyVelocity (someone : 0 < p) (part : Nat)
    (dofs : Vector α shape.dim.rigidSize) {coordinators : Team p → Coordinator shape α}
    (shared : SharedCoordinator settings descriptions coordinators)
    {composites : Team p → CompositeField α} (composite : SharedComposite descriptions composites) :
    Joint (fun _ : Team p => setBodyVelocity part dofs)
      (fun member => (coordinators member, composites member))
      (fun _ after => (SharedCoordinator settings descriptions fun member => (after member).1) ∧
        SharedComposite descriptions fun member => (after member).2)
      fun after => (SharedCoordinator settings descriptions fun member => (after member).1) ∧
        SharedComposite descriptions fun member => (after member).2 := by
  have expanding : SharedWork settings descriptions (fun member : Team p => do
      let window ← checking .setBodyVelocity fun c => do
        c.checkPart part
        c.checkParts (composites member)
        c.protocol.check .setVelocity
      onStructure part (expandVelocity member.seat settings.objectName part
        (.ofDofs shape.dim dofs) window.new)) fun found =>
      (descriptions[part]? = none ∧ found = fun _ => none) ∨
        ∃ description values, descriptions[part]? = some description ∧
          SharedField description.mesh values ∧ found = fun member => some (values member) := by
    refine sharedWork_bind (sharedWork_checking ?_) fun windows same => ?_
    · intro coordinators shared member
      simp only [shared.protocol member, shared.same_checkPart part member,
        shared.same_checkParts composite member]
    rw [same.eq]
    apply sharedWork_onStructure
    intro description bodies inside row
    exact row.joint_expandVelocity someone _ part _ _
  rw [Joint]
  simp only [setBodyVelocity, Action.on, Action.of, ExceptT.run, ExceptT.mk, shared.name,
    shared.seat, Task.quiet_bind]
  apply Together.bind (expanding coordinators shared)
  rintro _ (⟨_, after, rfl, expanded, shared⟩ | ⟨stop, after, refusal, rfl, shared⟩)
  · rcases expanded with ⟨outside, rfl⟩ | ⟨description, velocities, inside, velocity, rfl⟩
    · simp only [shared.count]
      refine .done (Or.inr ⟨.because (.violation (.structureOutOfRange part descriptions.length)),
        _, trivial, rfl, shared, composite⟩)
    · rcases composite.exists_row inside with ⟨targets, given, target, others⟩
      have copied : ∀ member, (targets member).copyFrom (velocities member) =
          .ok (velocities member) := target.copyFrom velocity
      simp only [given, copied, Task.quiet_bind]
      apply Together.bind
        (sharedWork_committing (fun p => p.record .setVelocity) after shared)
      rintro _ (⟨_, after, rfl, -, shared⟩ | ⟨stop, after, refusal, rfl, shared⟩)
      · exact .done (Or.inl ⟨_, _, rfl, shared, others velocities velocity⟩)
      · exact .done (Or.inr ⟨stop, _, refusal, rfl, shared, others velocities velocity⟩)
  · exact .done (Or.inr ⟨stop, _, refusal, rfl, shared, composite⟩)

/-- All members change the structure with a number, if there is one. -/
theorem sharedWork_changeStructure {part : Nat}
    {change : RigidStructure shape α → RigidStructure shape α}
    (keeps : ∀ description (bodies : Team p → RigidStructure shape α),
      SharedStructure description bodies →
        SharedStructure description fun member => change (bodies member)) :
    SharedWork settings descriptions (fun _ : Team p => changeStructure part change) Same := by
  apply (sharedWork_modify fun coordinators shared => ?_).imp fun _ _ _ => rfl
  exact { shared with structures := shared.structures.modify keeps part }

theorem sharedWork_updateVelocity (part : Nat) (dofs : Vector α shape.dim.rigidSize) :
    SharedWork settings descriptions (fun _ : Team p => updateVelocity part dofs) Same := by
  refine sharedWork_bind (sharedWork_checking ?_) fun _ _ => sharedWork_changeStructure ?_
  · intro coordinators shared member
    simp only [shared.protocol member, shared.same_checkPart part member,
      shared.same_checkFree part member]
  · intro description bodies row
    apply row.withVelocity
    intro member
    simp only [row.velocity member]

theorem sharedWork_setVelocity (part : Nat) (velocity : RigidVelocity α) :
    SharedWork settings descriptions (fun _ : Team p => setVelocity part velocity) Same := by
  refine sharedWork_bind (sharedWork_checking fun _ shared => shared.same_checkPart part)
    fun _ _ => ?_
  apply sharedWork_get
  intro coordinators shared
  have same : ∀ member, (coordinators member).protocol = (coordinators none).protocol :=
    shared.protocol
  simp only [shared.name, same]
  split
  · exact joint_refuse trivial shared
  · refine sharedWork_bind (sharedWork_checking fun _ shared => shared.same_checkFree part)
      (fun _ _ => sharedWork_changeStructure ?_) coordinators shared
    exact fun _ _ row => row.withVelocity (same_const (TimeLevels.uniform velocity))

/-! ## Restart records -/

theorem same_restartRecord {coordinators : Team p → Coordinator shape α}
    (shared : SharedCoordinator settings descriptions coordinators) :
    Same fun member => (coordinators member).restartRecord := by
  have velocities := shared.structures.same_map (f := fun body => body.velocity.current)
    fun _ _ row => row.velocity.map TimeLevels.current
  intro member
  simp only [restartRecord, shared.name, velocities member]

theorem columns_withVelocity {structures : Team p → List (RigidStructure shape α)}
    (columns : Columns SharedStructure descriptions structures)
    (velocities : List (RigidVelocity α)) (all : velocities.length = descriptions.length) :
    Columns SharedStructure descriptions fun member =>
      List.zipWith (·.withVelocity ·) (structures member) velocities := by
  induction columns generalizing velocities with
  | nil =>
      exact .nil
  | cons row columns ih =>
      cases velocities with
      | nil =>
          cases all
      | cons velocity velocities =>
          exact .cons (row.withVelocity (same_const _)) (ih velocities (Nat.succ.inj all))

theorem sharedWork_restore (record : RestartRecord α) :
    SharedWork settings descriptions (fun _ : Team p => restore record) Same := by
  apply sharedWork_get
  intro coordinators shared
  have same : ∀ member, (coordinators member).protocol = (coordinators none).protocol :=
    shared.protocol
  simp only [shared.name, shared.count, same]
  split
  · exact joint_refuse trivial shared
  cases checked : record.checkCompatible settings.objectName descriptions.length with
  | error e =>
      exact joint_attempt (same_const settings.objectName) (joint_refuse trivial shared)
  | ok _ =>
      refine sharedWork_bind (sharedWork_modify ?_) (fun _ _ => sharedWork_tell _)
        coordinators shared
      intro coordinators shared
      exact { shared with
        structures := columns_withVelocity shared.structures record.velocities
          (length_of_checkCompatible checked) }

end Coordinator

end ImmersedBody
