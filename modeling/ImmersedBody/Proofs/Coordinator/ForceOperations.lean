import ImmersedBody.Proofs.Coordinator.ForceEvents
import ImmersedBody.Proofs.Coordinator.Forces

/-!
# Operations that replace or hand over forces

What is left are the operations that open and close a step, set or integrate a
force, and spread forces onto the flow.  Each has one lemma here.  When one of
them is refused, the forces are what they were; only a step that could not be
opened or closed leaves a structure without force behind.
-/

namespace ImmersedBody.Coordinator

open ImmersedBody.Action RigidStructure

variable {α σ : Type} [Scalar α] {shape : Shape} {forces : List (Option (NodalField α))}
  {pending inStep : Bool} {c : Coordinator shape α}

/-! ## Setting and integrating forces -/

omit [Scalar α] in
/-- Composites that pass the check fit the structures part by part. -/
theorem fits_of_matchForces {objectName : String} {bodies : List (RigidStructure shape α)} :
    ∀ {number : Nat} {parts : List (NodalField α)},
      parts.length = bodies.length → matchForces objectName number bodies parts = .ok () →
        List.Forall₂ (fun body source => ∃ current, body.halfForce? = some current ∧
          current.compatible source = true) bodies parts := by
  induction bodies with
  | nil =>
      intro number parts length_eq _
      rw [List.length_eq_zero_iff.mp length_eq]
      exact .nil
  | cons body rest ih =>
      intro number parts length_eq matched
      cases parts with
      | nil =>
          cases length_eq
      | cons source sources =>
          rw [matchForces, bind_eq_ok_iff] at matched
          rcases matched with ⟨step, opened, matched⟩
          have found : body.step = some step := by
            rw [stepFields] at opened
            cases here : body.step with
            | none =>
                rw [here] at opened
                cases opened
            | some fields =>
                rw [here] at opened
                cases opened
                rfl
          split_ifs at matched with compatible
          refine .cons ⟨step.halfForce, ?_, compatible⟩ (ih (Nat.succ.inj length_eq) matched)
          rw [halfForce?, found]
          rfl

/-- Composites that fit are stored part by part. -/
theorem ends_storeForces (holding : c.Holding forces pending inStep)
    {composite : CompositeField α} (factor : α)
    (fits : List.Forall₂ (fun body source => ∃ current, body.halfForce? = some current ∧
      current.compatible source = true) c.structures composite.parts) :
    (forEachStructure (storeForce c.seat composite factor)).Ends c
      (fun _ after => ∃ structures, after = { c with structures } ∧
        List.Forall₂ RigidStructure.Carries
          (composite.parts.map fun source => some (source.stored factor)) structures)
      fun _ => False := by
  rcases List.forall₂_iff_get.mp fits with ⟨length_eq, each⟩
  apply Coordinator.ends_forEachStructure
    (fun part _ after => ∃ source, composite.parts[part]? = some source ∧
      after.Carries (some (source.stored factor)))
    fun _ _ _ => False
  · intro part body member
    have found := List.mk_mem_zipIdx_iff_getElem?.mp member
    rcases List.getElem?_eq_some_iff.mp found with ⟨inside, rfl⟩
    have inside' : part < composite.parts.length := length_eq ▸ inside
    rcases each part inside inside' with ⟨current, carried, compatible⟩
    have carries : c.structures[part].Carries (some current) :=
      ⟨holding.sound _ (List.getElem_mem inside), carried⟩
    have sourced := List.getElem?_eq_getElem inside'
    apply (ends_storeForce holding.serial carries sourced compatible).imp
    · exact fun _ after stored => ⟨_, sourced, stored⟩
    · exact fun _ stopped => stopped
  · intro structures finished
    rcases finished.getElem with ⟨same, stored⟩
    refine ⟨structures, rfl, List.forall₂_iff_get.mpr ⟨?_, ?_⟩⟩
    · rw [List.length_map, same, length_eq]
    · intro i before after
      have inside : i < c.structures.length := same ▸ after
      rcases stored i inside after with ⟨source, sourced, carries⟩
      rw [Nat.zero_add] at sourced
      rcases List.getElem?_eq_some_iff.mp sourced with ⟨inside', rfl⟩
      simp only [List.get_eq_getElem, List.getElem_map]
      exact carries
  · intro structures stopped
    rcases stopped.exists_stop with ⟨-, _, _, -, _, -, impossible⟩
    exact impossible

theorem ends_setForce (holding : c.Holding forces pending inStep) {composite : CompositeField α}
    {time factor : α} :
    (setForce composite time factor).Ends c
      (fun _ after => inStep = true ∧ pending = false ∧ (∀ force ∈ forces, force.isSome = true) ∧
        composite.parts.length = forces.length ∧
        after.Holding (composite.parts.map fun source => some (source.stored factor)) true
          true)
      fun after => after.Holding forces pending inStep := by
  rw [setForce]
  simp only [ends_bind, ends_get, ends_checking]
  cases checked : (do c.checkParts composite; c.protocol.checkForce time) with
  | error violation =>
      exact holding
  | ok level =>
      rw [bind_eq_ok_iff] at checked
      rcases checked with ⟨_, counted, timely⟩
      have length_eq : composite.parts.length = c.structures.length := by
        rw [checkParts] at counted
        split_ifs at counted with same
        exact same
      rw [ends_of]
      cases matched : matchForces c.name 0 c.structures composite.parts with
      | error stop =>
          exact holding
      | ok _ =>
          have fits := fits_of_matchForces length_eq matched
          have stored := ends_storeForces holding factor fits
          simp only
          apply stored.imp _ fun _ stopped => stopped.elim
          rintro _ after ⟨structures, rfl, carried⟩
          rcases StepProtocol.produceForce_of_checkForce timely with
            ⟨outcome, produced, consistent, fresh, pending', opened, inStep'⟩
          simp only [ends_attempting, Coordinator.ends_committing, produced, ends_pure]
          refine ⟨holding.inStep_eq ▸ opened, holding.pending_eq ▸ fresh, ?_,
            length_eq.trans holding.length_eq,
            (holding.replace carried).protocol consistent pending' inStep'⟩
          intro force member
          rw [← holding.forces_eq] at member
          rcases List.mem_map.mp member with ⟨body, found, rfl⟩
          rcases List.getElem_of_mem found with ⟨i, inside, rfl⟩
          rcases List.forall₂_iff_get.mp fits with ⟨same, each⟩
          rcases each i inside (same ▸ inside) with ⟨current, carried, -⟩
          exact Option.isSome_of_eq_some carried

theorem ends_computeForce (holding : c.Holding forces pending inStep) {part : Nat}
    {force : NodalField α} :
    (computeForce part force).Ends c
      (fun _ after => (∃ current, forces[part]? = some (some current)) ∧
        after.Holding (forces.set part (some { force with synchronized := true })) pending inStep)
      fun after => after.Holding forces pending inStep := by
  rw [computeForce]
  simp only [ends_bind, ends_get, ends_checking]
  cases checked : (do c.checkPart part; c.protocol.check .computeForce) with
  | error violation =>
      exact holding
  | ok window =>
      rw [bind_eq_ok_iff] at checked
      rcases checked with ⟨_, counted, accepted⟩
      have inside : part < c.structures.length := by
        rw [checkPart] at counted
        split_ifs at counted with below
        exact below
      have found := List.getElem?_eq_getElem inside
      have carries := holding.carries (List.getElem_mem inside)
      rcases StepProtocol.exists_record_of_check accepted with ⟨outcome, recorded⟩
      have same := StepProtocol.sameHandoff_of_record (Or.inl rfl) recorded
      rw [ends_onStructure, found]
      apply (ends_integrateForce holding.serial carries).imp
      · rintro total after ⟨current, stored⟩
        simp only [Coordinator.ends_committing, recorded, ends_pure]
        constructor
        · rcases Option.isSome_iff_exists.mp current with ⟨force, carried⟩
          exact ⟨force, by rw [holding.force_eq found, carried]⟩
        · have kept := holding.withProtocol same
          exact kept.setStructure stored
      · intro after kept
        exact holding.withStructures (forall₂_set holding.sound found kept)

/-! ## Opening and closing a step -/

omit [Scalar α] in
@[simp]
theorem alone_assemble (parts : List (NodalField α)) :
    (CompositeField.assemble parts).alone = .ok ⟨parts⟩ :=
  rfl

omit [Scalar α] in
@[simp]
theorem alone_release (composite : CompositeField α) :
    composite.release.alone = .ok composite.parts :=
  rfl

/-- The mass properties of no structures can always be computed. -/
theorem ends_updateMass (holding : c.Holding forces pending inStep) :
    (updateMass : Work shape α Unit).Ends c
      (fun _ after => after.Holding forces pending inStep)
      fun after => forces ≠ [] ∧ after.Holding forces pending inStep := by
  rw [updateMass]
  simp only [ends_bind, ends_get]
  apply Coordinator.ends_forEachStructure (fun _ body after => after.Carries body.halfForce?)
    fun _ body after => after.Carries body.halfForce?
  · intro part body member
    exact ends_computeMass
      (holding.carries (List.mem_of_getElem? (List.mk_mem_zipIdx_iff_getElem?.mp member)))
  · intro structures finished
    exact holding.withStructures (finished.forall₂ fun _ _ _ kept => kept)
  · intro structures stopped
    rcases stopped.exists_stop with ⟨-, _, body, member, -⟩
    constructor
    · rintro rfl
      exact List.ne_nil_of_mem member (List.length_eq_zero_iff.mp holding.length_eq)
    · exact holding.withStructures (stopped.forall₂ (fun _ _ _ kept => kept)
        (fun _ _ _ kept => kept) fun body member => holding.carries member)

omit [Scalar α] in
theorem carries_opened {body : RigidStructure shape α} (sound : body.Sound)
    (window : StepWindow α) : (body.opened window).Carries (some body.constraintForce) where
  sound := {
    block := sound.block
    owned := sound.owned
    cells := sound.cells
    positions := sound.positions
    constraintForce := sound.constraintForce
    step := by
      rintro step ⟨⟩
      exact ⟨sound.positions, sound.positions, sound.constraintForce⟩ }
  force_eq := rfl

omit [Scalar α] in
/-- Opened structures carry forces, whatever they carried before. -/
theorem Holding.exists_opened {after : Coordinator shape α}
    (holding : c.Holding forces pending inStep) (window : StepWindow α) (seat : after.seat = c.seat)
    (structures : after.structures = c.structures.map (·.opened window))
    (protocol : after.protocol = c.protocol) :
    ∃ initial : List (NodalField α), initial.length = forces.length ∧
      after.Holding (initial.map some) pending inStep := by
  refine ⟨c.structures.map (·.constraintForce), by rw [List.length_map, holding.length_eq], ?_⟩
  have opened : ({ c with structures := c.structures.map (·.opened window) } :
      Coordinator shape α).Holding ((c.structures.map (·.constraintForce)).map some) pending
        inStep := by
    apply holding.replace
    rw [List.map_map, List.forall₂_map_left_iff, List.forall₂_map_right_iff]
    apply List.forall₂_same.mpr
    intro body member
    exact carries_opened (holding.sound body member) window
  exact opened.congr seat structures protocol

theorem ends_preprocess (holding : c.Holding forces pending inStep) {current new : α} :
    (preprocess current new).Ends c
      (fun _ after => inStep = false ∧ ∃ initial : List (NodalField α),
        initial.length = forces.length ∧ after.Holding (initial.map some) false true)
      fun after => after.Holding forces pending inStep ∨
        inStep = false ∧ forces ≠ [] ∧ after.Holding forces false true := by
  rw [preprocess]
  simp only [ends_bind, ends_get]
  apply (leaves_prepare c forces pending inStep holding).imp _ fun _ stopped => Or.inl stopped
  intro _ prepared holding'
  rw [ends_attempting, Coordinator.ends_committing]
  cases begun : prepared.protocol.beginStep current new with
  | error violation =>
      exact Or.inl holding'
  | ok outcome =>
      rcases StepProtocol.of_beginStep begun with ⟨outside, consistent, fresh, inside⟩
      have outside := holding'.inStep_eq.symm.trans outside
      have started := holding'.protocol consistent fresh inside
      simp only
      split_ifs
      · rw [ends_bind]
        apply (ends_updateMass started).imp
        · intro _ after computed
          simp only [ends_bind, ends_modify, ends_get, ends_collective, alone_assemble]
          exact ⟨outside, computed.exists_opened outcome.value rfl rfl rfl⟩
        · exact fun after stopped => Or.inr ⟨outside, stopped⟩
      · simp only [ends_bind, ends_modify, ends_get, ends_collective, alone_assemble]
        exact ⟨outside, started.exists_opened outcome.value rfl rfl rfl⟩

omit [Scalar α] in
/-- The structures after a step lost their forces; if not all did, at least one. -/
theorem ends_commits (holding : c.Holding forces pending inStep) {objectName : String}
    {newForces : Option (List (NodalField α))} :
    (forEachStructure (commit objectName newForces)).Ends c
      (fun _ after => (∀ force ∈ forces, force.isSome = true) ∧
        after.Holding (forces.map fun _ => none) pending inStep)
      fun after => ∃ forces' : List (Option (NodalField α)), none ∈ forces' ∧
        forces'.length = forces.length ∧ after.Holding forces' pending inStep := by
  apply Coordinator.ends_forEachStructure
    (fun _ body after => body.halfForce?.isSome = true ∧ after.Carries none)
    fun _ _ after => after.Carries none
  · intro part body member
    exact ends_commit
      (holding.carries (List.mem_of_getElem? (List.mk_mem_zipIdx_iff_getElem?.mp member)))
  · intro structures finished
    have each : List.Forall₂ (fun body after => body.halfForce?.isSome = true ∧
        after.Carries none) c.structures structures := finished.forall₂ fun _ _ _ done => done
    rcases (List.forall₂_and_left _ _).mp each with ⟨carried, lost⟩
    constructor
    · intro force member
      rw [← holding.forces_eq] at member
      rcases List.mem_map.mp member with ⟨body, found, rfl⟩
      exact carried body found
    · apply holding.replace
      rw [← holding.forces_eq, halfForces, List.map_map, List.forall₂_map_left_iff]
      exact lost
  · intro structures stopped
    rcases stopped.exists_stop with ⟨same, _, _, -, after, found, lost⟩
    refine ⟨structures.map halfForce?, ?_, ?_, holding.replace ?_⟩
    · exact List.mem_map.mpr ⟨after, found, lost.force_eq⟩
    · rw [List.length_map, same, holding.length_eq]
    · rw [List.forall₂_map_left_iff]
      apply List.forall₂_same.mpr
      have sound : List.Forall₂ (fun _ after => after.Sound ∧ True) c.structures structures :=
        stopped.forall₂ (fun _ _ _ done => ⟨done.2.sound, trivial⟩)
          (fun _ _ _ lost => ⟨lost.sound, trivial⟩)
          fun body member => ⟨holding.sound body member, trivial⟩
      intro body member
      exact ⟨((List.forall₂_and_left _ _).mp sound.flip).1 body member, rfl⟩

omit [Scalar α] in
/-- Closing a step takes all forces away; if it stops early, at least one. -/
theorem ends_postprocess (holding : c.Holding forces pending inStep) :
    (postprocess : Work shape α Unit).Ends c
      (fun _ after => inStep = true ∧ pending = false ∧ (∀ force ∈ forces, force.isSome = true) ∧
        after.Holding (forces.map fun _ => none) false false)
      fun after => after.Holding forces pending inStep ∨
        ∃ forces' : List (Option (NodalField α)), none ∈ forces' ∧
          forces'.length = forces.length ∧ after.Holding forces' false false := by
  rw [postprocess]
  simp only [ends_bind, ends_get]
  rw [ends_attempting, Coordinator.ends_committing]
  cases ended : c.protocol.endStep with
  | error violation =>
      exact Or.inl holding
  | ok outcome =>
      rcases StepProtocol.of_endStep ended with ⟨inside, settled, consistent, fresh, outside⟩
      have closed := holding.protocol consistent fresh outside
      have inside := holding.inStep_eq.symm.trans inside
      have settled := holding.pending_eq.symm.trans settled
      have commits (after : Coordinator shape α) (holding : after.Holding forces false false)
          (objectName : String) (newForces : Option (List (NodalField α))) :
          (forEachStructure (commit objectName newForces)).Ends after
            (fun _ after => inStep = true ∧ pending = false ∧
              (∀ force ∈ forces, force.isSome = true) ∧
              after.Holding (forces.map fun _ => none) false false)
            fun after => after.Holding forces pending inStep ∨
              ∃ forces' : List (Option (NodalField α)), none ∈ forces' ∧
                forces'.length = forces.length ∧ after.Holding forces' false false :=
        (ends_commits holding).imp (fun _ _ done => ⟨inside, settled, done⟩)
          fun _ stopped => Or.inr stopped
      simp only [ends_modify]
      cases c.currentForces <;> cases c.newForces <;>
        simp only [ends_bind, ends_get, ends_modify, ends_collective, alone_release, ends_pure,
          ends_map] <;>
        apply commits <;>
        exact closed.congr rfl rfl rfl

end ImmersedBody.Coordinator
