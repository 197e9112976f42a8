import ImmersedBody.Proofs.Coordinator.Commits
import ImmersedBody.Proofs.Coordinator.Standing
import ImmersedBody.Proofs.Coordinator.Wholeness

/-!
# Operations on whole coordinators

Each operation of an intact coordinator leaves it intact, in a step or outside of it, and
stops for foreseen reasons only.  The opening and the closing of a step lead from one to the
other.  Opening a step can fail for structures without volume, and closing it only before
anything has changed.
-/

namespace ImmersedBody

open ImmersedBody.Action RigidStructure

variable {α β : Type} {shape : Shape}

namespace Coordinator

variable [Scalar α] {inStep : Bool} {layouts : List FieldLayout} {c : Coordinator shape α}

/-! ## Operations -/

omit [Scalar α] in
/-- A field is not copied for one reason only. -/
theorem incompatible_of_copyFrom {field source : NodalField α} {refused : FieldError}
    (failed : field.copyFrom source = .error refused) : refused = .incompatibleLayouts := by
  rw [NodalField.copyFrom] at failed
  split at failed
  · cases failed
  · cases failed
    rfl

/-- A change of each member of a list by a value of its own. -/
theorem forall₂_zipWith {ι τ ω : Type} {fits : ι → τ → Prop} {change : τ → ω → τ}
    {labels : List ι} {members : List τ} {values : List ω}
    (lengths : values.length = members.length) (all : List.Forall₂ fits labels members)
    (changes : ∀ label member value, fits label member → fits label (change member value)) :
    List.Forall₂ fits labels (List.zipWith change members values) := by
  induction all generalizing values with
  | nil =>
      exact .nil
  | cons first rest ih =>
      cases values with
      | nil =>
          cases lengths
      | cons value values =>
          exact .cons (changes _ _ value first) (ih (Nat.succ.inj lengths))

/-- Velocities that are read into a composite field of another layout are refused. -/
theorem isForeseen_of_copyVelocities {bodies : List (RigidStructure shape α)} {factor : α}
    (all : List.Forall₂ (RigidStructure.Intact true) layouts bodies) {part : Nat}
    {targets : List (NodalField α)} {stop : Stop α}
    (stopped : (copyVelocities factor part bodies targets).1 = .error stop) :
    stop.IsForeseen := by
  induction all generalizing part targets with
  | nil =>
      cases targets <;> cases stopped
  | cons first rest ih =>
      cases targets with
      | nil =>
          cases stopped
      | cons target targets =>
          rcases first.exists_step with ⟨step, found, -⟩
          rw [copyVelocities, stepFields, found] at stopped
          by_cases compatible : target.compatible step.halfVelocity = true
          · simp only [NodalField.copyFrom, if_pos compatible] at stopped
            exact ih stopped
          · simp only [NodalField.copyFrom, if_neg compatible] at stopped
            cases stopped
            trivial

/-- Forces of another layout are refused. -/
theorem isForeseen_of_matchForces {bodies : List (RigidStructure shape α)} {objectName : String}
    (all : List.Forall₂ (RigidStructure.Intact true) layouts bodies) {part : Nat}
    {forces : List (NodalField α)} {stop : Stop α}
    (stopped : matchForces objectName part bodies forces = .error stop) : stop.IsForeseen := by
  induction all generalizing part forces with
  | nil =>
      cases forces <;> cases stopped
  | cons first rest ih =>
      cases forces with
      | nil =>
          cases stopped
      | cons force forces =>
          rcases first.exists_step with ⟨step, found, -⟩
          rw [matchForces, stepFields, found] at stopped
          change (if step.halfForce.compatible force then _ else _) = _ at stopped
          split at stopped
          · exact ih stopped
          · cases stopped
            trivial

/-- Mass properties are computed for all structures, unless one of them has no volume. -/
theorem yields_updateMass
    (all : List.Forall₂ (RigidStructure.Intact inStep) layouts c.structures) :
    (updateMass : Work shape α Unit).Yields c
      (fun _ after => ∃ structures,
        List.Forall₂ (RigidStructure.Intact inStep) layouts structures ∧
          after = { c with structures })
      fun stop after => stop.IsWeightless ∧ ∃ structures,
        List.Forall₂ (RigidStructure.Intact inStep) layouts structures ∧
          after = { c with structures } := by
  rw [updateMass, yields_bind, yields_get]
  apply (Coordinator.yields_forEachStructure all
    fun part layout body _ fits => yields_computeMass fits).imp
  · exact fun _ _ computed => computed
  · rintro stop _ ⟨weightless, structures, left, rfl⟩
    exact ⟨weightless, structures, left.imp fun _ _ fits => fits.elim id fun fits =>
      fits.elim id id, rfl⟩

/-- Once all masses have been computed, the fields of a step are allocated. -/
theorem intact_of_opened {protocol : StepProtocol α} {window : StepWindow α}
    (opened : c.protocol = protocol.opened window) (serial : c.seat.size = 1)
    (all : List.Forall₂ (RigidStructure.Intact false) layouts c.structures) :
    let structures := c.structures.map (·.opened window)
    let forces : CompositeField α := ⟨structures.map (·.constraintForce)⟩
    { c with
      structures, currentForces := some forces, newForces := some forces }.Intact true layouts := by
  intro structures forces
  have inStep : List.Forall₂ (RigidStructure.Intact true) layouts structures := by
    rw [List.forall₂_map_right_iff]
    exact all.imp fun _ _ fits => fits.opened window
  have allocated : forces.parts.map (·.layout) = layouts := by
    rw [List.map_map, ← List.forall₂_eq_eq_eq, List.forall₂_map_left_iff]
    exact (inStep.imp fun _ _ fits => fits.constraintForce).flip
  exact {
    serial := serial
    phase := by
      rw [opened]
      rfl
    window := by
      rw [opened]
      rfl
    structures := inStep
    currentForces := congrArg some allocated
    newForces := congrArg some allocated }

theorem yields_serve_setBodyVelocity {σ : Type} {flow : FlowTransfer α σ} {part : Nat}
    {dofs : Vector α shape.dim.rigidSize} {composite : CompositeField α}
    {state : σ} {post : Unit → Coordinator shape α × σ → Prop}
    {stopped : Stop α → Coordinator shape α × σ → Prop} :
    (Call.serve flow (.setBodyVelocity part dofs composite)).Yields (c, state) post stopped ↔
      (Coordinator.setBodyVelocity part dofs).Yields (c, composite)
        (fun _ after => post () (after.1, state))
        fun stop after => stopped stop (after.1, state) := by
  rw [Call.serve, yields_of, Yields, Action.alone]
  simp only [Task.alone_bind]
  generalize ((Coordinator.setBodyVelocity part dofs).on (c, composite)).alone = result at *
  rcases result with ⟨_ | _, after⟩ <;> rfl

namespace Intact

theorem yields_prepare (intact : c.Intact inStep layouts) :
    (prepare : Work shape α Unit).Yields c
      (fun _ after => after.Intact inStep layouts ∧ after.protocol = c.protocol)
      fun stop after => stop.IsWeightless ∧ after.Intact inStep layouts ∧
        after.protocol = c.protocol := by
  rw [prepare, yields_bind, yields_get]
  split
  · exact ⟨intact, rfl⟩
  · simp only [yields_bind, yields_get, yields_tell, yields_modify]
    apply (yields_updateMass intact.structures).imp
    · rintro _ _ ⟨structures, all, rfl⟩
      exact ⟨{ intact.withStructures all with }, rfl⟩
    · rintro stop _ ⟨weightless, structures, all, rfl⟩
      exact ⟨weightless, intact.withStructures all, rfl⟩

/--
Opening a step allocates all that belongs to it.  A coordinator stays intact if opening a step
stops, unless that is for a structure without volume.
-/
theorem yields_preprocess (intact : c.Intact inStep layouts) {current new : α} :
    (preprocess current new : Work shape α Unit).Yields c
      (fun _ after => after.Intact true layouts)
      fun stop after => stop.IsWeightless ∨
        (stop.IsForeseen ∧ after.Intact inStep layouts) := by
  rw [preprocess]
  simp only [yields_bind, yields_get]
  apply intact.yields_prepare.imp _ fun _ _ stopped => Or.inl stopped.1
  rintro _ prepared ⟨kept, -⟩
  rw [yields_attempting, yields_committing]
  cases begun : prepared.protocol.beginStep current new with
  | error violation =>
      exact Or.inr ⟨trivial, kept⟩
  | ok outcome =>
      rcases StepProtocol.beginStep_eq_ok_iff.mp begun with ⟨next, accepted, rfl⟩
      rcases Phase.after_preprocess_eq_ok_iff.mp accepted with ⟨outside, rfl⟩
      have closed : inStep = false := kept.phase.symm.trans outside
      subst closed
      let begun : Coordinator shape α :=
        { prepared with protocol := prepared.protocol.opened (.between current new) }
      simp only
      split
      next =>
        have weighs := yields_updateMass (c := begun) kept.structures
        rw [yields_bind]
        apply weighs.imp _ fun _ _ stopped => Or.inl stopped.1
        rintro _ _ ⟨structures, all, rfl⟩
        simp only [yields_bind, yields_modify, yields_get, yields_collective, alone_assemble]
        exact intact_of_opened (c := { begun with structures }) rfl kept.serial all
      next =>
        simp only [yields_bind, yields_modify, yields_get, yields_collective, alone_assemble]
        exact intact_of_opened (c := begun) rfl kept.serial kept.structures

/-- Closing a step takes away all that belongs to it, or is refused before anything changes. -/
theorem yields_postprocess (intact : c.Intact inStep layouts) :
    (postprocess : Work shape α Unit).Yields c (fun _ after => after.Intact false layouts)
      fun stop after => stop.IsForeseen ∧ after = c := by
  rw [postprocess]
  simp only [yields_bind, yields_get, yields_attempting, yields_committing]
  cases closed : c.protocol.endStep with
  | error violation =>
      exact ⟨trivial, trivial⟩
  | ok outcome =>
      rcases StepProtocol.endStep_eq_ok_iff.mp closed with
        ⟨next, window, accepted, found, -, rfl⟩
      have opened := intact.inStep_of_window found
      subst opened
      rcases Phase.after_postprocess_eq_ok_iff.mp accepted with ⟨-, rfl⟩
      rcases intact.exists_forcesAt (show TimeLevel.current ≠ .half by decide) with
        ⟨currentForces, currently, -⟩
      rcases intact.exists_forcesAt (show TimeLevel.new ≠ .half by decide) with
        ⟨newForces, newly, same⟩
      have commits : ∀ part layout (body : RigidStructure shape α),
          layouts[part]? = some layout → body.Intact true layout →
            (commit c.name (some newForces.parts) part).Yields body
              (fun _ after => after.Intact false layout)
              fun stop after => False ∧ after.Intact false layout := by
        intro part layout body known fits
        rw [← same, List.getElem?_map, Option.map_eq_some_iff] at known
        rcases known with ⟨force, found, fitting⟩
        exact (yields_commit fits found fitting).imp (fun _ _ committed => committed)
          fun _ _ => False.elim
      change c.currentForces = _ at currently
      change c.newForces = _ at newly
      simp only [yields_modify, currently, yields_bind, yields_collective, alone_release,
        yields_get, newly, yields_map]
      let closing : Coordinator shape α :=
        { c with
          protocol := { c.protocol.cleared with phase := .postprocessed, window := none }
          currentForces := none
          newForces := none }
      have committed := Coordinator.yields_forEachStructure (c := closing) intact.structures commits
      apply committed.imp
      · rintro _ _ ⟨structures, all, rfl⟩
        exact {
          serial := intact.serial
          phase := rfl
          window := rfl
          structures := all
          currentForces := rfl
          newForces := rfl }
      · exact fun _ _ stopped => stopped.1.elim

theorem maintains_advance (intact : c.Intact inStep layouts) {rule : AdvanceRule}
    {current new : α} :
    (advance rule current new : Work shape α Unit).Maintains c
      (Coordinator.Intact inStep layouts) := by
  rw [Maintains, advance]
  simp only [yields_bind, yields_get, yields_checking, yields_attempting, yields_committing]
  cases c.checkTimes rule current new with
  | error violation =>
      exact ⟨trivial, intact⟩
  | ok _ =>
      simp only
      cases accepted : c.protocol.advance rule with
      | error violation =>
          exact ⟨trivial, intact⟩
      | ok outcome =>
          rcases StepProtocol.advance_eq_ok_iff.mp accepted with
            ⟨next, window, transition, found, -, -⟩
          have opened := intact.inStep_of_window found
          subst opened
          have advanced := intact.withProtocol (StepProtocol.sameStep_of_advance accepted)
          cases rule with
          | forwardEuler =>
              simp only [yields_bind, yields_tell]
              exact advanced.maintains_forEachStructure fun part layout body fits =>
                maintains_predict intact.serial fits
          | midpoint =>
              simp only [yields_bind, yields_tell]
              exact advanced.maintains_forEachStructure fun part layout body fits =>
                (yields_update_intact intact.serial fits).maintains
          | trapezoidal =>
              exact absurd transition Phase.after_trapezoidal_ne_ok

theorem maintains_interpolate (intact : c.Intact inStep layouts) {field : Vec3 α → α → Vec3 α}
    {time : α} {tally : SpreadTally α} :
    (interpolate (AnalyticFlow.transfer shape.dim field) time).Maintains (c, tally)
      fun after => after.1.Intact inStep layouts := by
  rw [Maintains, interpolate]
  simp only [yields_bind, yields_get, yields_first, yields_checking, yields_attempting,
    yields_committing]
  cases leveled : (do
      let window ← c.protocol.check .interpolateVelocity
      c.levelOf .interpolateVelocity window time) with
  | error violation =>
      exact ⟨trivial, intact⟩
  | ok level =>
      rcases bind_eq_ok_iff.mp leveled with ⟨window, checked, -⟩
      have opened := intact.inStep_of_check checked
      subst opened
      simp only
      cases consumed : c.protocol.consumeRequest with
      | error violation =>
          exact ⟨trivial, intact⟩
      | ok outcome =>
          have between := intact.withProtocol (StepProtocol.sameStep_of_consumeRequest consumed)
          simp only
          split
          · exact between.maintains_forStructures fun part layout body tally fits =>
              (yields_interpolateOnto intact.serial fits).maintains
          · exact between

/-- Reading velocities changes nothing. -/
theorem isForeseen_of_readVelocities (intact : c.Intact inStep layouts) {time factor : α}
    {composite after : CompositeField α} {stop : Stop α}
    (stopped : c.readVelocities time factor composite = .error stop after) :
    stop.IsForeseen := by
  rw [readVelocities] at stopped
  split at stopped
  next violation _ =>
    cases stopped
    trivial
  next queried =>
    rcases bind_eq_ok_iff.mp queried with ⟨_, known, -⟩
    rcases bind_eq_ok_iff.mp known with ⟨window, checked, -⟩
    have opened := intact.inStep_of_check checked
    subst opened
    split at stopped
    next =>
      cases stopped
    next copied =>
      cases stopped
      exact isForeseen_of_copyVelocities intact.structures (congrArg Prod.fst copied)

theorem maintains_setForce (intact : c.Intact inStep layouts) {composite : CompositeField α}
    {time factor : α} :
    (setForce composite time factor : Work shape α Unit).Maintains c
      (Coordinator.Intact inStep layouts) := by
  rw [Maintains, setForce]
  simp only [yields_bind, yields_get, yields_checking, yields_of, Task.alone]
  cases checked : (do
      c.checkParts composite
      c.protocol.checkForce time) with
  | error violation =>
      exact ⟨trivial, intact⟩
  | ok level =>
      rcases bind_eq_ok_iff.mp checked with ⟨_, -, accepted⟩
      rcases StepProtocol.checkForce_eq_ok_iff.mp accepted with ⟨window, ⟨_, -, found⟩, -, -⟩
      have opened := intact.inStep_of_window found
      subst opened
      simp only
      cases matched : matchForces c.name 0 c.structures composite.parts with
      | error stop =>
          exact ⟨isForeseen_of_matchForces intact.structures matched, intact⟩
      | ok _ =>
          have stores : (forEachStructure (storeForce c.seat composite factor)).Maintains c
              (Coordinator.Intact true layouts) :=
            intact.maintains_forEachStructure fun part layout body fits =>
              maintains_storeForce intact.serial fits
          apply stores.imp
          · intro _ after stored
            simp only [yields_attempting, yields_pure, Stop.isForeseen_within]
            exact stored.maintains_committing fun _ => StepProtocol.sameStep_of_produceForce
          · exact fun _ _ stopped => stopped

/-- Forces are there in a step.  Callers have to keep their layouts. -/
theorem yields_changeForces (intact : c.Intact inStep layouts) {time : α}
    {change : CompositeField α → CompositeField α} :
    (changeForces time change : Work shape α (Option (CompositeField α))).Yields c
      (fun _ after => KeepsLayouts change → after.Intact inStep layouts)
      fun stop after => stop.IsForeseen ∧ after.Intact inStep layouts := by
  rw [changeForces]
  simp only [yields_bind, yields_get, yields_checking]
  cases queried : c.protocol.queryForce time with
  | error violation =>
      exact ⟨trivial, intact⟩
  | ok level =>
      cases level with
      | none =>
          simp only [yields_bind, yields_tell, yields_pure]
          exact fun _ => intact
      | some level =>
          rcases bind_eq_ok_iff.mp queried with ⟨window, checked, matched⟩
          have opened := intact.inStep_of_check checked
          subst opened
          have notHalf : level ≠ .half := by
            rintro rfl
            have member := List.mem_of_find?_eq_some (Except.ok.inj matched)
            simp at member
          rcases intact.exists_forcesAt notHalf with ⟨forces, allocated, -⟩
          simp only [allocated, yields_bind, yields_set, yields_pure]
          exact fun keeps => intact.withForcesAt allocated (keeps forces)

theorem maintains_computeForce (intact : c.Intact inStep layouts) {part : Nat}
    {force : NodalField α} :
    (computeForce part force : Work shape α _).Maintains c (Coordinator.Intact inStep layouts) := by
  rw [Maintains, computeForce]
  simp only [yields_bind, yields_get, yields_checking]
  cases checked : (do
      c.checkPart part
      c.protocol.check .computeForce) with
  | error violation =>
      exact ⟨trivial, intact⟩
  | ok window =>
      rcases bind_eq_ok_iff.mp checked with ⟨_, -, accepted⟩
      have opened := intact.inStep_of_check accepted
      subst opened
      have integrates : (onStructure part
          (integrateForce c.seat c.name c.settings.quadratureOrder part force)).Maintains c
            (Coordinator.Intact true layouts) :=
        intact.maintains_onStructure fun layout body fits =>
          maintains_integrateForce intact.serial fits
      apply integrates.imp
      · intro total after kept
        simp only [yields_pure]
        exact kept.maintains_committing fun _ => StepProtocol.sameStep_of_record (Or.inl rfl)
      · exact fun _ _ stopped => stopped

theorem maintains_setBodyVelocity (intact : c.Intact inStep layouts) {part : Nat}
    {dofs : Vector α shape.dim.rigidSize} {composite : CompositeField α} :
    (setBodyVelocity part dofs).Maintains (c, composite)
      fun after => after.1.Intact inStep layouts := by
  have expands : (do
      let window ← checking .setBodyVelocity fun c => do
        c.checkPart part
        c.checkParts composite
        c.protocol.check .setVelocity
      onStructure part (expandVelocity c.seat c.name part (.ofDofs shape.dim dofs) window.new) :
        Work shape α (Option (NodalField α))).Maintains c (Coordinator.Intact inStep layouts) := by
    rw [Maintains, yields_bind, yields_checking]
    cases checked : (do
        c.checkPart part
        c.checkParts composite
        c.protocol.check .setVelocity) with
    | error violation =>
        exact ⟨trivial, intact⟩
    | ok window =>
        rcases bind_eq_ok_iff.mp checked with ⟨_, -, later⟩
        rcases bind_eq_ok_iff.mp later with ⟨_, -, accepted⟩
        have opened := intact.inStep_of_check accepted
        subst opened
        exact intact.maintains_onStructure fun layout body fits =>
          (yields_expandVelocity intact.serial fits).maintains
  rw [Maintains, setBodyVelocity, yields_of, Task.alone_bind]
  rw [Maintains, Yields, Action.alone] at expands
  generalize (on _ c).alone = result at *
  rcases result with ⟨stop | expanded, between⟩
  · exact expands
  · cases expanded with
    | none =>
        exact ⟨trivial, expands⟩
    | some velocity =>
        cases composite.parts[part]? with
        | none =>
            exact ⟨trivial, expands⟩
        | some target =>
            cases copied : target.copyFrom velocity with
            | error refused =>
                simp only [copied]
                cases incompatible_of_copyFrom copied
                exact ⟨trivial, expands⟩
            | ok field =>
                have records : (committing fun p => p.record .setVelocity :
                    Work shape α (StepWindow α)).Maintains between
                      (Coordinator.Intact inStep layouts) :=
                  expands.maintains_committing fun _ =>
                    StepProtocol.sameStep_of_record (Or.inr rfl)
                rw [Maintains, Yields, Action.alone] at records
                simp only [copied, Task.alone_bind]
                generalize (on _ between).alone = result at *
                rcases result with ⟨_ | window, after⟩ <;> exact records

theorem maintains_updateVelocity (intact : c.Intact inStep layouts) {part : Nat}
    {dofs : Vector α shape.dim.rigidSize} :
    (updateVelocity part dofs : Work shape α Unit).Maintains c
      (Coordinator.Intact inStep layouts) := by
  rw [Maintains, updateVelocity, changeStructure]
  simp only [yields_bind, yields_checking, yields_modify]
  split
  · exact intact.modifyStructure part fun _ _ _ fits => fits.withVelocity _
  · exact ⟨trivial, intact⟩

theorem maintains_setVelocity (intact : c.Intact inStep layouts) {part : Nat}
    {velocity : RigidVelocity α} :
    (setVelocity part velocity : Work shape α Unit).Maintains c
      (Coordinator.Intact inStep layouts) := by
  rw [Maintains, setVelocity, yields_bind, yields_checking]
  split
  · rw [yields_bind, yields_get]
    split
    · exact ⟨trivial, intact⟩
    · simp only [yields_bind, yields_checking, changeStructure, yields_modify]
      split
      · exact intact.modifyStructure part fun _ _ _ fits => fits.withVelocity _
      · exact ⟨trivial, intact⟩
  · exact ⟨trivial, intact⟩

theorem maintains_spread (intact : c.Intact inStep layouts) {field : Vec3 α → α → Vec3 α}
    {time : α} {tally : SpreadTally α} :
    (spread (AnalyticFlow.transfer shape.dim field) time).Maintains (c, tally)
      fun after => after.1.Intact inStep layouts := by
  rw [Maintains, spread]
  simp only [yields_bind, yields_get, yields_first, yields_checking, yields_attempting,
    yields_committing]
  cases found : c.protocol.window with
  | none =>
      exact ⟨trivial, intact⟩
  | some window =>
      have opened := intact.inStep_of_window found
      subst opened
      simp only
      cases c.levelOf .spreadForce window time with
      | error violation =>
          exact ⟨trivial, intact⟩
      | ok level =>
          simp only
          cases consumed : c.protocol.consumeForce with
          | error violation =>
              exact ⟨trivial, intact⟩
          | ok outcome =>
              have between := intact.withProtocol (StepProtocol.sameStep_of_consumeForce consumed)
              simp only
              split
              · exact between.maintains_forStructures fun part layout body tally fits =>
                  (yields_spreadFrom fits).maintains
              · exact between

theorem maintains_restore (intact : c.Intact inStep layouts) {record : RestartRecord α} :
    (restore record : Work shape α Unit).Maintains c (Coordinator.Intact inStep layouts) := by
  rw [Maintains, restore, yields_bind, yields_get]
  split
  · exact ⟨trivial, intact⟩
  · cases checked : record.checkCompatible c.name c.count with
    | error e =>
        exact ⟨trivial, intact⟩
    | ok _ =>
        simp only [yields_bind, yields_modify, yields_tell]
        apply intact.withStructures
        exact forall₂_zipWith (length_of_checkCompatible checked) intact.structures
          fun _ _ _ fits => fits.withVelocity _

/-! ## Calls -/

/-- A call that neither opens nor closes a step keeps a coordinator intact. -/
theorem yields_serve_between (intact : c.Intact inStep layouts) {call : Call shape α}
    (notOpening : ∀ current new, call ≠ .preprocess current new) (notClosing : call ≠ .postprocess)
    {field : Vec3 α → α → Vec3 α} {tally : SpreadTally α} :
    (call.serve (AnalyticFlow.transfer shape.dim field)).Yields (c, tally)
      (fun _ after => (∀ time change, call = .changeForces time change → KeepsLayouts change) →
        after.1.Intact inStep layouts)
      fun stop after => stop.IsForeseen ∧ after.1.Intact inStep layouts := by
  have kept {action : Action α (Coordinator shape α × SpreadTally α) Unit}
      (maintains : action.Maintains (c, tally) fun after => after.1.Intact inStep layouts) :
      action.Yields (c, tally)
        (fun _ after => (∀ time change, call = .changeForces time change →
          KeepsLayouts change) → after.1.Intact inStep layouts)
        fun stop after => stop.IsForeseen ∧ after.1.Intact inStep layouts :=
    maintains.imp (fun _ _ after _ => after) fun _ _ stopped => stopped
  have first {work : Work shape α Unit}
      (maintains : work.Maintains c (Coordinator.Intact inStep layouts)) :
      (Action.first work : Action α (Coordinator shape α × SpreadTally α) Unit).Maintains
        (c, tally) fun after => after.1.Intact inStep layouts := by
    rw [Maintains, yields_first]
    exact maintains
  cases call with
  | preprocess current new =>
      exact absurd rfl (notOpening current new)
  | postprocess =>
      exact absurd rfl notClosing
  | prepare =>
      apply kept
      apply first
      exact intact.yields_prepare.imp (fun _ _ after => after.1)
        fun _ _ stopped => ⟨stopped.1.isForeseen, stopped.2.1⟩
  | listen listener =>
      exact kept (first { intact with })
  | createComposite | fluidCalls current new cycle | restartRecord =>
      exact kept intact
  | requestInterpolation time =>
      apply kept
      apply first
      rw [requestInterpolation, Maintains, yields_attempting]
      simp only [Stop.isForeseen_within]
      exact intact.maintains_committing fun _ => StepProtocol.sameStep_of_requestInterpolation
  | interpolate time =>
      exact kept intact.maintains_interpolate
  | readVelocities composite time factor =>
      apply kept
      rw [Call.serve, Maintains, yields_of]
      simp only
      cases read : c.readVelocities time factor composite with
      | ok value after =>
          exact intact
      | error stop after =>
          exact ⟨intact.isForeseen_of_readVelocities read, intact⟩
  | advance rule current new =>
      exact kept (first intact.maintains_advance)
  | skipForce time =>
      apply kept
      apply first
      rw [Maintains, skipForce, yields_bind, yields_get, yields_tell]
      exact intact
  | setForce composite time factor =>
      exact kept (first intact.maintains_setForce)
  | changeForces time change =>
      rw [Call.serve, yields_first, yields_bind]
      apply intact.yields_changeForces.imp
      · intro _ after keeps
        rw [yields_pure]
        exact fun edits => keeps (edits time change rfl)
      · exact fun _ _ stopped => stopped
  | computeForce part force =>
      apply kept
      apply first
      exact intact.maintains_computeForce.bind fun _ _ after => after
  | setBodyVelocity part dofs composite =>
      apply kept
      rw [Maintains, yields_serve_setBodyVelocity]
      exact intact.maintains_setBodyVelocity
  | updateVelocity part dofs =>
      exact kept (first intact.maintains_updateVelocity)
  | setVelocity part velocity =>
      exact kept (first intact.maintains_setVelocity)
  | spread time =>
      exact kept intact.maintains_spread
  | restore record =>
      exact kept (first intact.maintains_restore)

end Intact

end Coordinator

end ImmersedBody
