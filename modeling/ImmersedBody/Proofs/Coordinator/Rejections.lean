import ImmersedBody.Proofs.Coordinator.OpenSteps

/-!
# Exchanges with the solver that are rejected

Setting the constraint forces and integrating one of them write the forces of the half
time before the protocol is told.  On the only rank both are all or nothing,
nevertheless: the layouts are looked at before anything is written, and nothing that
comes after can fail for a sound structure.  This is `force_calls_all_or_nothing`.
-/

namespace ImmersedBody

open ImmersedBody.Action NodalField

variable {α : Type} {shape : Shape}

/-- An action that stops, and leaves its state as it was when it does, stops in this state. -/
theorem Action.Ends.exists_stop {σ β : Type} {action : Action α σ β} {state : σ}
    {post : β → σ → Prop} {stopped : σ → Prop} (ends : action.Ends state post stopped)
    (stops : (action.alone state).1.toOption = none)
    (untouched : ∀ after, stopped after → after = state) :
    ∃ stop, action.alone state = (.error stop, state) := by
  rw [Ends] at ends
  generalize action.alone state = result at *
  rcases result with ⟨stop | value, after⟩
  · exact ⟨stop, by rw [untouched after ends]⟩
  · cases stops

/-! ## Forces of one structure -/

namespace RigidStructure

variable {body : RigidStructure shape α} {force : NodalField α}

/-- The structure with another constraint force at the half time, if it has fields of a step. -/
def withHalfForce (body : RigidStructure shape α) (force : NodalField α) :
    RigidStructure shape α :=
  { body with step := body.step.map fun step => { step with halfForce := force } }

/-- The structure has a constraint force at the half time that another one can replace. -/
def Takes (body : RigidStructure shape α) (force : NodalField α) : Prop :=
  ∃ current, body.halfForce? = some current ∧ current.compatible force = true

theorem takes_iff : body.Takes force ↔
    ∃ step, body.step = some step ∧ step.halfForce.compatible force = true := by
  simp only [Takes, halfForce?, Option.map_eq_some_iff]
  constructor
  · rintro ⟨_, ⟨step, opened, rfl⟩, compatible⟩
    exact ⟨step, opened, compatible⟩
  · rintro ⟨step, opened, compatible⟩
    exact ⟨_, ⟨step, opened, rfl⟩, compatible⟩

theorem withHalfForce_of_step {step : StepFields α} (opened : body.step = some step) :
    body.withHalfForce force =
      { body with step := some { step with halfForce := force } } := by
  rw [withHalfForce, opened, Option.map_some]

end RigidStructure

namespace Coordinator

open RigidStructure

section

variable [Scalar α] {seat : Seat} {part : Nat} {body : RigidStructure shape α}
  {source : NodalField α}

/-- A part of a composite that a structure takes is stored, times the factor. -/
theorem ends_storeForce_exact (serial : seat.size = 1) (takes : body.Takes source)
    {composite : CompositeField α} {factor : α} (found : composite.parts[part]? = some source) :
    (storeForce seat composite factor part).Ends body
      (fun _ after => after = body.withHalfForce (source.stored factor)) fun _ => False := by
  rcases takes_iff.mp takes with ⟨step, opened, compatible⟩
  have copied : step.halfForce.copyFrom source = .ok source :=
    copyFrom_of_compatible compatible
  rw [storeForce, found]
  simp only [ends_bind, ends_get, ends_stepFields, opened, copied, ends_set, ends_collective,
    alone_close serial]
  exact (withHalfForce_of_step opened).symm

/-- A force is stored and integrated exactly if the structure takes it. -/
theorem ends_integrateForce_exact (serial : seat.size = 1) (sound : body.Sound)
    {objectName : String} {order : Nat} :
    (integrateForce seat objectName order part source).Ends body
      (fun _ after => body.Takes source ∧
        after = body.withHalfForce { source with synchronized := true })
      fun after => ¬ body.Takes source ∧ after = body := by
  rw [integrateForce]
  simp only [ends_bind, ends_get, ends_stepFields]
  cases opened : body.step with
  | none =>
      refine ⟨?_, trivial⟩
      rintro ⟨current, carried, -⟩
      rw [halfForce?, opened] at carried
      cases carried
  | some step =>
      have takes_iff' : body.Takes source ↔ step.halfForce.compatible source = true := by
        simp [takes_iff, opened]
      have fits := sound.step step opened
      by_cases compatible : step.halfForce.compatible source = true
      · have copied : step.halfForce.copyFrom source = .ok source :=
          copyFrom_of_compatible compatible
        have sameLayout := (layout_eq_of_compatible compatible).trans fits.halfForce
        rcases exists_alone_generalizedForce sound.block sound.owned sound.cells
          fits.halfPositions
          (show ({ source with synchronized := true } : NodalField α).layout = body.layout from
            sameLayout)
          body.halfMass.center (shape.rule order) with ⟨total, integrated⟩
        simp only [copied, ends_bind, ends_set, ends_collective, alone_close serial,
          ends_attempt, integrated]
        exact ⟨takes_iff'.mpr compatible, (withHalfForce_of_step opened).symm⟩
      · have refused : step.halfForce.copyFrom source = .error .incompatibleLayouts :=
          copyFrom_of_incompatible compatible
        simp only [refused, ends_attempt, ends_refuse]
        exact ⟨fun takes => compatible (takes_iff'.mp takes), trivial⟩

end

/-! ## Forces of all structures -/

variable {c : Coordinator shape α} {composite : CompositeField α}

/-- A composite passes the check of its parts if every structure takes its part. -/
theorem matchForces_eq_ok {objectName : String} {bodies : List (RigidStructure shape α)}
    {parts : List (NodalField α)} (takes : List.Forall₂ RigidStructure.Takes bodies parts) :
    ∀ number, matchForces objectName number bodies parts = .ok () := by
  induction takes with
  | nil =>
      exact fun _ => rfl
  | cons first later ih =>
      intro number
      rcases takes_iff.mp first with ⟨step, opened, compatible⟩
      rw [matchForces, stepFields, opened]
      exact (if_pos compatible).trans (ih (number + 1))

/-- Composite forces are accepted at a time if the protocol and the structures take them. -/
def AcceptsForces [Scalar α] (c : Coordinator shape α) (composite : CompositeField α) (time : α) :
    Prop :=
  (∃ level, c.protocol.checkForce time = .ok level) ∧
    List.Forall₂ RigidStructure.Takes c.structures composite.parts

/-- A force is accepted if the protocol lets it be integrated and the structure takes it. -/
def AcceptsForce (c : Coordinator shape α) (part : Nat) (force : NodalField α) : Prop :=
  (∃ window, c.protocol.check .computeForce = .ok window) ∧
    ∃ body, c.structures[part]? = some body ∧ body.Takes force

/-- The coordinator with the parts of a composite, times a factor, as forces of the half time. -/
def storing [Mul α] (c : Coordinator shape α) (composite : CompositeField α) (factor : α) :
    Coordinator shape α :=
  { c with
    structures := List.zipWith (fun body source => body.withHalfForce (source.stored factor))
      c.structures composite.parts }

variable [Scalar α]

/-- Parts that are taken are stored. -/
theorem ends_storeForces_exact (serial : c.seat.size = 1) (factor : α)
    (takes : List.Forall₂ RigidStructure.Takes c.structures composite.parts) :
    (forEachStructure (storeForce c.seat composite factor)).Ends c
      (fun _ after => after = c.storing composite factor) fun _ => False := by
  rcases List.forall₂_iff_get.mp takes with ⟨length_eq, each⟩
  apply Coordinator.ends_forEachStructure
    (fun part body after => ∃ source, composite.parts[part]? = some source ∧
      after = body.withHalfForce (source.stored factor))
    fun _ _ _ => False
  · intro part body member
    have found := List.mk_mem_zipIdx_iff_getElem?.mp member
    rcases List.getElem?_eq_some_iff.mp found with ⟨inside, rfl⟩
    have sourced := List.getElem?_eq_getElem (length_eq ▸ inside : part < composite.parts.length)
    apply (ends_storeForce_exact serial (each part inside _) sourced).imp
    · exact fun _ after stored => ⟨_, sourced, stored⟩
    · exact fun _ stopped => stopped
  · intro structures finished
    rcases finished.getElem with ⟨same, stored⟩
    have all : structures = List.zipWith
        (fun body source => body.withHalfForce (source.stored factor)) c.structures
          composite.parts := by
      apply List.ext_getElem
      · rw [List.length_zipWith, same, length_eq, Nat.min_self]
      · intro i after inside
        have before : i < c.structures.length := same ▸ after
        rcases stored i before after with ⟨source, sourced, after_eq⟩
        rw [Nat.zero_add] at sourced
        rcases List.getElem?_eq_some_iff.mp sourced with ⟨_, rfl⟩
        rw [after_eq, List.getElem_zipWith]
    rw [all, storing]
  · intro structures stopped
    rcases stopped.exists_stop with ⟨-, _, _, -, _, -, impossible⟩
    exact impossible

/-- Composite forces are set as a whole if they are accepted; otherwise nothing changes. -/
theorem ends_setForce_exact (serial : c.seat.size = 1) {time factor : α} :
    (setForce composite time factor).Ends c
      (fun _ after => c.AcceptsForces composite time ∧
        ∃ outcome, c.protocol.produceForce time = .ok outcome ∧
          after = { c.storing composite factor with protocol := outcome.protocol })
      fun after => ¬ c.AcceptsForces composite time ∧ after = c := by
  rw [setForce]
  simp only [ends_bind, ends_get, ends_checking]
  cases checked : (do c.checkParts composite; c.protocol.checkForce time) with
  | error violation =>
      refine ⟨?_, trivial⟩
      rintro ⟨⟨level, timely⟩, takes⟩
      have counted : c.checkParts composite = .ok () := if_pos takes.length_eq.symm
      rw [counted] at checked
      cases checked.symm.trans timely
  | ok level =>
      rw [bind_eq_ok_iff] at checked
      rcases checked with ⟨_, counted, timely⟩
      have length_eq : composite.parts.length = c.structures.length :=
        checkParts_eq_ok_iff.mp counted
      rw [ends_of]
      cases matched : matchForces c.name 0 c.structures composite.parts with
      | error stop =>
          refine ⟨?_, rfl⟩
          rintro ⟨-, takes⟩
          rw [matchForces_eq_ok takes] at matched
          cases matched
      | ok _ =>
          have takes := fits_of_matchForces length_eq matched
          simp only
          apply (ends_storeForces_exact serial factor takes).imp _ fun _ stopped => stopped.elim
          rintro _ after rfl
          rcases StepProtocol.produceForce_of_checkForce timely with ⟨outcome, produced, -⟩
          have produced' : (c.storing composite factor).protocol.produceForce time = .ok outcome :=
            produced
          simp only [ends_attempting, Coordinator.ends_committing, produced', ends_pure]
          exact ⟨⟨⟨level, timely⟩, takes⟩, outcome, produced, rfl⟩

/-- A force is stored, integrated and recorded if it is accepted; otherwise nothing changes. -/
theorem ends_computeForce_exact (sound : c.Sound) {part : Nat} {force : NodalField α} :
    (computeForce part force).Ends c
      (fun total after => c.AcceptsForce part force ∧ total.isSome = true ∧
        ∃ outcome, c.protocol.record .computeForce = .ok outcome ∧
          after = { c with
            protocol := outcome.protocol
            structures := c.structures.modify part
              (·.withHalfForce { force with synchronized := true }) })
      fun after => ¬ c.AcceptsForce part force ∧ after = c := by
  rw [computeForce]
  simp only [ends_bind, ends_get, ends_checking]
  cases checked : (do c.checkPart part; c.protocol.check .computeForce) with
  | error violation =>
      refine ⟨?_, trivial⟩
      rintro ⟨⟨window, accepted⟩, body, found, -⟩
      have counted : c.checkPart part = .ok () := if_pos (List.getElem?_eq_some_iff.mp found).1
      rw [counted] at checked
      cases checked.symm.trans accepted
  | ok window =>
      rw [bind_eq_ok_iff] at checked
      rcases checked with ⟨_, counted, accepted⟩
      have inside : part < c.structures.length := checkPart_eq_ok_iff.mp counted
      have found := List.getElem?_eq_getElem inside
      have sound' := sound.sound _ (List.mem_of_getElem? found)
      rcases StepProtocol.exists_record_of_check accepted with ⟨outcome, recorded⟩
      rw [ends_onStructure, found]
      apply (ends_integrateForce_exact sound.serial sound').imp
      · rintro total _ ⟨takes, rfl⟩
        simp only [Coordinator.ends_committing, recorded, ends_pure]
        refine ⟨⟨⟨window, accepted⟩, _, found, takes⟩, rfl, outcome, rfl, ?_⟩
        rw [List.modify_eq_set_getElem?, found]
        rfl
      · rintro _ ⟨refused, rfl⟩
        constructor
        · rintro ⟨-, body, found', takes⟩
          rw [found, Option.some.injEq] at found'
          exact refused (found' ▸ takes)
        · rw [List.set_getElem_self]

/-! ## Whatever has been called before -/

section

variable {settings : Settings α} {descriptions : List (StructureDescription shape α)} {seat : Seat}

/--
The coordinators that registration and calls lead to, each call with a flow of its own, whether it
succeeds or stops.
-/
inductive Attainable (settings : Settings α) (descriptions : List (StructureDescription shape α))
    (seat : Seat) : Coordinator shape α → Prop where
  | registered {c : Coordinator shape α}
      (created : (register settings descriptions seat).alone = .ok c) :
      Attainable settings descriptions seat c
  | called {σ : Type} {c : Coordinator shape α} (earlier : Attainable settings descriptions seat c)
      (flow : FlowTransfer α σ) (state : σ) (call : Call shape α) :
      Attainable settings descriptions seat (serveAlone flow (c, state) call).1

theorem Attainable.sound (serial : seat.size = 1)
    (attained : Attainable settings descriptions seat c) : c.Sound := by
  induction attained with
  | registered created =>
      exact sound_of_holding (holding_of_register serial created)
  | called earlier flow state call ih =>
      exact ih.serve

theorem Attainable.runAlone {σ : Type} {flow : FlowTransfer α σ} {calls : List (Call shape α)} :
    ∀ {c : Coordinator shape α} {state : σ}, Attainable settings descriptions seat c →
      Attainable settings descriptions seat (Coordinator.runAlone flow (c, state) calls).1 := by
  induction calls with
  | nil =>
      exact fun attained => attained
  | cons call calls ih =>
      exact fun attained => ih (attained.called flow _ call)

/--
Whatever has been called before, composite forces are set as a whole exactly if the protocol lets
them be set and every structure takes its part, and a force is integrated exactly if the protocol
lets it be integrated and the structure takes it.  Otherwise the call stops and nothing has changed.
-/
theorem force_calls_all_or_nothing (serial : seat.size = 1)
    (attained : Attainable settings descriptions seat c) :
    (∀ composite time factor, (setForce composite time factor).Ends c
      (fun _ after => c.AcceptsForces composite time ∧
        ∃ outcome, c.protocol.produceForce time = .ok outcome ∧
          after = { c.storing composite factor with protocol := outcome.protocol })
      fun after => ¬ c.AcceptsForces composite time ∧ after = c) ∧
    ∀ part force, (computeForce part force).Ends c
      (fun total after => c.AcceptsForce part force ∧ total.isSome = true ∧
        ∃ outcome, c.protocol.record .computeForce = .ok outcome ∧
          after = { c with
            protocol := outcome.protocol
            structures := c.structures.modify part
              (·.withHalfForce { force with synchronized := true }) })
      fun after => ¬ c.AcceptsForce part force ∧ after = c := by
  have sound := attained.sound serial
  exact ⟨fun _ _ _ => ends_setForce_exact sound.serial, fun _ _ => ends_computeForce_exact sound⟩

/-- A field of two nodes, which the triangle does not take. -/
def shortField (value : ℚ) : NodalField ℚ :=
  .constant ⟨4, ⟨0, 4⟩, #[], 2, Dim.two.size_pos, by decide, by decide, by simp, by simp⟩ value

/-- One part too many and a force of another length are refused in a step, and nothing changes. -/
theorem triangle_refuses_forces :
    let c := (Coordinator.runAlone counting (ofTriangle, 0)
      [.preprocess 0 1, .advance .forwardEuler 0 1, .setForce ⟨[uniformForce 1]⟩ 0 2, .spread 0]).1
    (∃ stop, (setForce ⟨[uniformForce 1, uniformForce 1]⟩ 1 1).alone c = (.error stop, c)) ∧
      ∃ stop, (computeForce 0 (shortField 1)).alone c = (.error stop, c) := by
  intro c
  have registered : (register ⟨"triangle", 0, 1 / 10⟩ [triangle] Seat.alone).alone =
      .ok ofTriangle :=
    eq_ok_get _
  have attained : Attainable ⟨"triangle", 0, 1 / 10⟩ [triangle] Seat.alone c :=
    (Attainable.registered registered).runAlone
  rcases force_calls_all_or_nothing rfl attained with ⟨set, integrated⟩
  have refused : ((setForce ⟨[uniformForce 1, uniformForce 1]⟩ 1 1).alone c).1.toOption = none := by
    decide +kernel
  have refused' : ((computeForce 0 (shortField 1)).alone c).1.toOption = none := by
    decide +kernel
  exact ⟨(set _ _ _).exists_stop refused fun _ unchanged => unchanged.2,
    (integrated _ _).exists_stop refused' fun _ unchanged => unchanged.2⟩

end

end Coordinator

end ImmersedBody
