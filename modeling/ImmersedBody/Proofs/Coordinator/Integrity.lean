import ImmersedBody.Proofs.Coordinator.Bodies
import ImmersedBody.Proofs.Ranks.Reasons
import ImmersedBody.Proofs.Rigid.Intact

/-!
# What operations do to an intact structure

The work of a coordinator on one structure, on the only rank.  It keeps the structure
intact, and it stops for foreseen reasons only: a structure without volume, or a field
of another layout.
-/

namespace ImmersedBody.Coordinator

open ImmersedBody.Action RigidStructure NodalField

variable {α β σ : Type} {shape : Shape} {c : Coordinator shape α}

/-! ## Rules -/

section

variable {post : β → Coordinator shape α → Prop} {stopped : Stop α → Coordinator shape α → Prop}

@[simp]
theorem yields_attempting {what : Attempt} {work : Work shape α β} :
    (attempting what work).Yields c post stopped ↔
      work.Yields c post fun stop => stopped (stop.within c.name what) := by
  rw [attempting, yields_bind, yields_get, yields_attempt]

@[simp]
theorem yields_checking {what : Attempt}
    {check : Coordinator shape α → Except (Violation α) β} :
    (checking what check).Yields c post stopped ↔
      match check c with
      | .ok value => post value c
      | .error violation => stopped (.within c.name what (.because (.violation violation))) c := by
  rw [checking, yields_bind, yields_get, yields_attempting]
  exact yields_require

@[simp]
theorem yields_committing
    {operation : StepProtocol α → Except (Violation α) (StepOutcome α β)} :
    (committing operation : Work shape α β).Yields c post stopped ↔
      match operation c.protocol with
      | .ok outcome => post outcome.value { c with protocol := outcome.protocol }
      | .error violation => stopped (.because (.violation violation)) c := by
  rw [committing, yields_bind, yields_get, yields_bind, yields_require]
  cases operation c.protocol with
  | error violation =>
      rfl
  | ok outcome =>
      simp

end

@[simp]
theorem yields_stepFields {part : Nat} {body : RigidStructure shape α} {state : σ}
    {post : StepFields α → σ → Prop} {stopped : Stop α → σ → Prop} :
    (Action.of fun s => .done (stepFields part body, s) : Action α σ (StepFields α)).Yields state
        post stopped ↔
      match body.step with
      | some step => post step state
      | none => stopped (.because (.noStepData part)) state := by
  rw [yields_of, stepFields]
  cases body.step <;> rfl

/-- Work on the structure with a number. -/
theorem yields_onStructure {part : Nat} {action : Action α (RigidStructure shape α) β}
    {post : Option β → Coordinator shape α → Prop} {stopped : Stop α → Coordinator shape α → Prop} :
    (onStructure part action).Yields c post stopped ↔
      match c.structures[part]? with
      | none => post none c
      | some body =>
        action.Yields body
          (fun value after => post (some value) { c with structures := c.structures.set part after })
          fun stop after => stopped stop { c with structures := c.structures.set part after } := by
  rw [onStructure, yields_of]
  cases c.structures[part]? with
  | none =>
      rfl
  | some body =>
      simp only [Task.alone_bind, Yields, Action.alone]
      rcases (action.on body).alone with ⟨_ | value, after⟩ <;> rfl

section

variable {before done halted : FieldLayout → RigidStructure shape α → Prop}
  {reason : Stop α → Prop} {layouts : List FieldLayout}

/-- Work on all structures, whose layouts are known, given what it does to one of them. -/
theorem yields_forStructures (action : Nat → Action α (RigidStructure shape α × σ) Unit)
    (state : σ) (all : List.Forall₂ before layouts c.structures)
    (each : ∀ part layout body state, layouts[part]? = some layout → before layout body →
      (action part).Yields (body, state) (fun _ after => done layout after.1)
        fun stop after => reason stop ∧ halted layout after.1) :
    (forStructures action).Yields (c, state)
      (fun _ after => ∃ structures, List.Forall₂ done layouts structures ∧
        after.1 = { c with structures })
      fun stop after => reason stop ∧ ∃ structures,
        List.Forall₂ (fun layout body => done layout body ∨ halted layout body ∨
          before layout body) layouts structures ∧ after.1 = { c with structures } := by
  have worked := yields_onEach state
    (fun part layout body state member => each part layout body state
      (List.mk_mem_zipIdx_iff_getElem?.mp member)) all
  rw [forStructures, yields_of, Task.alone_bind]
  generalize (onEach action 0 c.structures state).alone = result at *
  rcases result with ⟨stop | _, structures, after⟩
  · exact ⟨worked.1, structures, worked.2, rfl⟩
  · exact ⟨structures, worked, rfl⟩

theorem yields_forEachStructure {action : Nat → Action α (RigidStructure shape α) Unit}
    (all : List.Forall₂ before layouts c.structures)
    (each : ∀ part layout body, layouts[part]? = some layout → before layout body →
      (action part).Yields body (fun _ after => done layout after)
        fun stop after => reason stop ∧ halted layout after) :
    (forEachStructure action).Yields c
      (fun _ after => ∃ structures, List.Forall₂ done layouts structures ∧
        after = { c with structures })
      fun stop after => reason stop ∧ ∃ structures,
        List.Forall₂ (fun layout body => done layout body ∨ halted layout body ∨
          before layout body) layouts structures ∧ after = { c with structures } := by
  have worked := yields_forStructures (fun part => (action part).first) () all
    fun part layout body state found fits => by
      rw [yields_first]
      exact each part layout body found fits
  rw [forEachStructure, yields_of, Task.alone_bind]
  rw [Yields, Action.alone] at worked
  generalize ((forStructures fun part => (action part).first).on (c, ())).alone = result at *
  rcases result with ⟨_ | _, after, _⟩ <;> exact worked

end

/-! ## One structure -/

variable [Scalar α] {inStep : Bool} {layout : FieldLayout} {body : RigidStructure shape α}
  {seat : Seat} {part : Nat}

/-- Mass properties from positions at all nodes fail only for a lack of volume. -/
theorem massAt_cases (spans : layout.Spans shape.dim body.mesh.vertices.size)
    (cells : ∀ number ∈ body.partition.cells, number < body.mesh.cells.size)
    {positions : NodalField α} (fits : positions.layout = layout) (order : Nat) :
    (∃ mass, (body.massAt positions order).alone = .ok mass) ∨
      ∃ stop, (body.massAt positions order).alone = .error stop ∧ stop.IsWeightless := by
  rcases MassProperties.compute_cases spans cells fits (shape.rule order) with
    computed | ⟨volume, failed⟩
  · exact Or.inl computed
  · exact Or.inr ⟨_, failed, trivial⟩

theorem yields_computeMass (intact : body.Intact inStep layout) {objectName : String}
    {order : Nat} :
    (do
      let body ← get
      let mass ← (Action.collective (body.massAt body.positions order)).attempt objectName
        (.computeMass part)
      set (body.withMass mass) : Action α (RigidStructure shape α) Unit).Yields body
      (fun _ after => after.Intact inStep layout)
      fun stop after => stop.IsWeightless ∧ after.Intact inStep layout := by
  simp only [yields_bind, yields_get, yields_attempt, yields_collective, yields_set,
    Stop.isWeightless_within]
  rcases massAt_cases intact.spans intact.cells intact.positions order with
    ⟨mass, computed⟩ | ⟨stop, failed, weightless⟩
  · rw [computed]
    exact intact.withMass mass
  · rw [failed]
    exact ⟨weightless, intact⟩

section

variable {step : StepFields α} (serial : seat.size = 1) (opened : body.step = some step)
  (spans : layout.Spans shape.dim body.mesh.vertices.size)
  (positions : body.positions.layout = layout)

include serial opened spans positions

/-- Positions at all nodes can be predicted, if there is a volume where they are moved to. -/
theorem yields_predict (cells : ∀ number ∈ body.partition.cells, number < body.mesh.cells.size)
    (halfFits : step.halfPositions.layout = layout) {objectName : String} {order : Nat}
    {window : StepWindow α} :
    (predict seat objectName order window part).Yields body
      (fun _ after => ∃ halfPositions halfMass, halfPositions.layout = layout ∧
        halfPositions.synchronized = true ∧
          after = { body with step := some { step with halfPositions }, halfMass })
      fun stop after => stop.IsWeightless ∧ ∃ halfPositions, halfPositions.layout = layout ∧
        halfPositions.synchronized = true ∧
          after = { body with step := some { step with halfPositions } } := by
  rw [predict]
  simp only [yields_bind, yields_get, yields_stepFields, opened, yields_part]
  rcases spans.exists_displace positions halfFits
    (RigidDisplacement.about body.currentMass.center body.velocity.current.translational
      body.velocity.current.rotational (Scalar.half * window.length)) with ⟨moved, displaced, same⟩
  have fresh : ({ moved with synchronized := true } : NodalField α).layout = layout := same
  simp only [displaced, yields_collective, alone_close serial, yields_set, yields_attempt,
    Stop.isWeightless_within, RigidStructure.massAt]
  rcases MassProperties.compute_cases spans cells fresh (shape.rule order) with
    ⟨mass, computed⟩ | ⟨volume, failed⟩
  · rw [computed]
    exact ⟨_, mass, fresh, rfl, rfl⟩
  · rw [failed]
    exact ⟨trivial, _, fresh, rfl, rfl⟩

/-- Positions at all nodes can be moved to the new time. -/
theorem yields_update (newFits : step.newPositions.layout = layout) {window : StepWindow α} :
    (update seat window part).Yields body
      (fun _ after => ∃ newPositions, newPositions.layout = layout ∧
        newPositions.synchronized = true ∧
          after = { body with step := some { step with newPositions } })
      fun _ _ => False := by
  rw [update]
  simp only [yields_bind, yields_get, yields_stepFields, opened, yields_part]
  rcases spans.exists_displace positions newFits
    (RigidDisplacement.about body.currentMass.center body.velocity.half.translational
      body.velocity.half.rotational window.length) with ⟨moved, displaced, same⟩
  simp only [displaced, yields_collective, alone_close serial, yields_set]
  exact ⟨{ moved with synchronized := true }, same, rfl, rfl⟩

end

theorem maintains_predict (serial : seat.size = 1) (intact : body.Intact true layout)
    {objectName : String} {order : Nat} {window : StepWindow α} :
    (predict seat objectName order window part).Maintains body
      (RigidStructure.Intact true layout) := by
  rcases intact.exists_step with ⟨step, found, fits⟩
  have predicted {halfPositions : NodalField α} (same : halfPositions.layout = layout)
      (synchronized : halfPositions.synchronized = true) :
      { body with step := some { step with halfPositions } }.Intact true layout :=
    intact.withStep { fits with halfPositions := same, halfSynchronized := synchronized }
  apply (yields_predict serial found intact.spans intact.positions intact.cells
    fits.halfPositions).imp
  · rintro _ _ ⟨halfPositions, halfMass, same, synchronized, rfl⟩
    exact (predicted same synchronized).withHalfMass halfMass
  · rintro _ _ ⟨weightless, halfPositions, same, synchronized, rfl⟩
    exact ⟨weightless.isForeseen, predicted same synchronized⟩

theorem yields_update_intact (serial : seat.size = 1) (intact : body.Intact true layout)
    {window : StepWindow α} :
    (update seat window part).Yields body (fun _ after => after.Intact true layout)
      fun _ _ => False := by
  rcases intact.exists_step with ⟨step, found, fits⟩
  apply (yields_update serial found intact.spans intact.positions fits.newPositions).imp
  · rintro _ _ ⟨newPositions, same, synchronized, rfl⟩
    exact intact.withStep { fits with newPositions := same, newSynchronized := synchronized }
  · exact fun _ _ impossible => impossible

/-- Sampling a velocity field at the nodes of a structure. -/
theorem yields_interpolateOnto (serial : seat.size = 1) (intact : body.Intact true layout)
    {objectName : String} {field : Vec3 α → α → Vec3 α} {level : TimeLevel} {time : α}
    {tally : SpreadTally α} :
    (interpolateOnto seat objectName (AnalyticFlow.transfer shape.dim field) level time
      part).Yields (body, tally) (fun _ after => after.1.Intact true layout)
      fun _ _ => False := by
  rcases intact.exists_step with ⟨step, found, fits⟩
  rw [interpolateOnto]
  simp only [yields_bind, yields_get, yields_stepFields, found, yields_attempt, yields_part]
  rcases intact.spans.exists_writeMapped (intact.positionsAt fits level)
    (intact.flowVelocityAt fits level) (field · time) with ⟨sampled, written, same, -⟩
  rcases intact.withFlowVelocity found level same with ⟨step', found', between⟩
  have sample : AnalyticFlow.sample shape.dim field (body.positionsAt step level) time
      (body.flowVelocityAt step level) = .ok () sampled :=
    written
  simp only [AnalyticFlow.transfer, sample, found', yields_collective, alone_close serial,
    yields_set]
  have closes := between.flowVelocityAt (between.step step' found') level
  rcases between.withFlowVelocity found' level
    (show ({ (body.withFlowVelocity step level sampled).flowVelocityAt step' level with
      synchronized := true } : NodalField α).layout = layout from closes) with ⟨-, -, after⟩
  exact after

/-- Storing a force, which has to have the layout of the structure. -/
theorem maintains_storeForce (serial : seat.size = 1) (intact : body.Intact true layout)
    {composite : CompositeField α} {factor : α} :
    (storeForce seat composite factor part).Maintains body
      (RigidStructure.Intact true layout) := by
  rcases intact.exists_step with ⟨step, found, fits⟩
  rw [Maintains, storeForce]
  cases composite.parts[part]? with
  | none =>
      exact intact
  | some source =>
      simp only [yields_bind, yields_get, yields_stepFields, found]
      by_cases compatible : step.halfForce.compatible source = true
      · have copied : step.halfForce.copyFrom source = .ok source :=
          copyFrom_of_compatible compatible
        have same := (layout_eq_of_compatible compatible).trans fits.halfForce
        simp only [copied, yields_bind, yields_set, yields_collective, alone_close serial]
        exact intact.withStep { fits with halfForce := same }
      · have refused : step.halfForce.copyFrom source = .error .incompatibleLayouts :=
          copyFrom_of_incompatible compatible
        simp only [refused, yields_refuse]
        exact ⟨trivial, intact⟩

/-- A force that has the layout of the structure can be integrated. -/
theorem maintains_integrateForce (serial : seat.size = 1) (intact : body.Intact true layout)
    {objectName : String} {order : Nat} {force : NodalField α} :
    (integrateForce seat objectName order part force).Maintains body
      (RigidStructure.Intact true layout) := by
  rcases intact.exists_step with ⟨step, found, fits⟩
  rw [Maintains, integrateForce]
  simp only [yields_bind, yields_get, yields_stepFields, found]
  by_cases compatible : step.halfForce.compatible force = true
  · have copied : step.halfForce.copyFrom force = .ok force :=
      copyFrom_of_compatible compatible
    have same := (layout_eq_of_compatible compatible).trans fits.halfForce
    rcases exists_alone_generalizedForce intact.spans.block intact.spans.owned intact.cells
      fits.halfPositions (show ({ force with synchronized := true } : NodalField α).layout = layout
        from same) body.halfMass.center (shape.rule order) with ⟨total, integrated⟩
    simp only [copied, yields_bind, yields_set, yields_collective, alone_close serial,
      yields_attempt, integrated]
    exact intact.withStep { fits with halfForce := same }
  · have refused : step.halfForce.copyFrom force = .error .incompatibleLayouts :=
      copyFrom_of_incompatible compatible
    simp only [refused, yields_attempt, yields_refuse]
    exact ⟨trivial, intact⟩

theorem yields_expandVelocity (serial : seat.size = 1) (intact : body.Intact true layout)
    {objectName : String} {velocity : RigidVelocity α} {time : α} :
    (expandVelocity seat objectName part velocity time).Yields body
      (fun _ after => after.Intact true layout) fun _ _ => False := by
  rcases intact.exists_step with ⟨step, found, fits⟩
  rw [expandVelocity]
  simp only [yields_bind, yields_get, yields_stepFields, found, yields_attempt, yields_part]
  rcases intact.spans.exists_writeMapped fits.halfPositions fits.constrainedVelocity
    (fun x => velocity.atOffset (x - body.halfMass.center)) with ⟨expanded, written, same, -⟩
  have expand : body.nodalVelocity velocity step.halfPositions body.halfMass.center time
      step.constrainedVelocity = .ok () expanded := by
    rw [intact.nodalVelocity]
    exact written
  have after : { body with step := some { step with
      constrainedVelocity := { expanded with synchronized := true } } }.Intact true layout :=
    intact.withStep { fits with constrainedVelocity := same }
  simp only [expand, yields_collective, alone_close serial, yields_set, yields_pure]
  exact after

/-- The force of an intact structure can be spread. -/
theorem yields_spreadFrom (intact : body.Intact true layout) {objectName : String}
    {field : Vec3 α → α → Vec3 α} {level : TimeLevel} {time : α} {tally : SpreadTally α} :
    (spreadFrom objectName (AnalyticFlow.transfer shape.dim field) level time part).Yields
      (body, tally) (fun _ after => after.1.Intact true layout) fun _ _ => False := by
  rcases intact.exists_step with ⟨step, found, fits⟩
  rw [spreadFrom]
  simp only [yields_bind, yields_get, yields_stepFields, found, yields_attempt, yields_part]
  rcases intact.spans.exists_tally fits.halfForce part tally with ⟨after, added⟩
  simp only [AnalyticFlow.transfer, added]
  exact intact

/-- An intact structure can be committed with a constraint force that has its layout. -/
theorem yields_commit (intact : body.Intact true layout) {objectName : String}
    {forces : List (NodalField α)} {force : NodalField α} (found : forces[part]? = some force)
    (same : force.layout = layout) :
    (commit objectName (some forces) part).Yields body (fun _ after => after.Intact false layout)
      fun _ _ => False := by
  rcases intact.exists_step with ⟨step, opened, fits⟩
  have copied : (body.committed step).constraintForce.copyFrom force = .ok force := by
    rw [copyFrom, if_pos]
    rw [compatible, same, beq_iff_eq]
    exact intact.constraintForce
  rw [commit]
  simp only [yields_bind, yields_get, opened, yields_set, Option.bind_some, found, copied,
    yields_modify]
  exact (intact.committed fits same).withVelocity _

end ImmersedBody.Coordinator
