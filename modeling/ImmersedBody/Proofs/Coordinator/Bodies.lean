import ImmersedBody.Coordinator.Exchange
import ImmersedBody.Coordinator.Step
import ImmersedBody.Proofs.Coordinator.Work
import ImmersedBody.Proofs.Field.Composites
import ImmersedBody.Proofs.Rigid.Soundness

/-!
# What operations do to one structure

The work of a coordinator on one structure, on the only rank.  Sound structures
stay sound.  Most operations do not touch the constraint force of the half time;
those that do replace it as a whole or stop before they have touched it.
-/

namespace ImmersedBody

/-- Sampling the velocity of the flow keeps a property of its state. -/
def FlowTransfer.SamplesKeep {α σ : Type} (flow : FlowTransfer α σ) (kept : σ → Prop) : Prop :=
  ∀ part positions time velocity state, kept state →
    match flow.interpolate part positions time (velocity, state) with
    | .ok _ after => kept after.2
    | .error _ after => kept after.2

/-- Spreading forces onto the flow keeps a property of its state. -/
def FlowTransfer.SpreadsKeep {α σ : Type} (flow : FlowTransfer α σ) (kept : σ → Prop) : Prop :=
  ∀ part positions forces time state, kept state →
    match flow.spread part positions forces time state with
    | .ok _ after => kept after
    | .error _ after => kept after

namespace Coordinator

open ImmersedBody.Action RigidStructure NodalField

variable {α σ : Type} {shape : Shape} {part : Nat} {body : RigidStructure shape α}
  {force : Option (NodalField α)}

@[simp]
theorem ends_stepFields {state : σ} {post : StepFields α → σ → Prop} {stopped : σ → Prop} :
    (Action.of fun s => .done (stepFields part body, s) : Action α σ (StepFields α)).Ends state
        post stopped ↔
      match body.step with
      | some step => post step state
      | none => stopped state := by
  rw [ends_of, stepFields]
  cases body.step <;> rfl

/-- Work on the structure with a number. -/
theorem ends_onStructure {β : Type} {c : Coordinator shape α}
    {action : Action α (RigidStructure shape α) β} {post : Option β → Coordinator shape α → Prop}
    {stopped : Coordinator shape α → Prop} :
    (onStructure part action).Ends c post stopped ↔
      match c.structures[part]? with
      | none => post none c
      | some body =>
        action.Ends body
          (fun value after => post (some value) { c with structures := c.structures.set part after })
          fun after => stopped { c with structures := c.structures.set part after } := by
  rw [onStructure, ends_of]
  cases c.structures[part]? with
  | none =>
      rfl
  | some body =>
      simp only [Task.alone_bind, Ends, Action.alone]
      rcases (action.on body).alone with ⟨_ | value, after⟩ <;> rfl

variable [Scalar α] {seat : Seat}

/-! ## Operations that do not touch the force -/

theorem ends_predict (serial : seat.size = 1) (carries : body.Carries force) {objectName : String}
    {order : Nat} {window : StepWindow α} :
    (predict seat objectName order window part).Ends body (fun _ after => after.Carries force)
      fun after => after.Carries force := by
  rw [predict]
  simp only [ends_bind, ends_get, ends_stepFields, ends_part]
  cases found : body.step with
  | none =>
      exact carries
  | some step =>
      have fits := carries.fits found
      have force_eq := carries.eq_some found
      have moves (moved : NodalField α) (same : moved.layout = step.halfPositions.layout) :
          { body with step := some { step with halfPositions := moved } }.Carries force :=
        carries.withStep { step with halfPositions := moved }
          ⟨same.trans fits.halfPositions, fits.newPositions, fits.halfForce⟩
          force_eq
      simp only
      generalize displaced :
        NodalField.displace shape.dim _ body.positions step.halfPositions = result
      cases result with
      | error stop moved =>
          exact moves moved (layout_of_displace (Or.inr ⟨stop, displaced⟩))
      | ok value moved =>
          have layout := layout_of_displace (Or.inl displaced)
          simp only [ends_collective, alone_close serial, ends_set, ends_attempt]
          have closed := moves { moved with synchronized := true } layout
          split
          · exact closed.congr rfl rfl rfl rfl rfl rfl
          · exact closed

theorem ends_update (serial : seat.size = 1) (carries : body.Carries force)
    {window : StepWindow α} :
    (update seat window part).Ends body (fun _ after => after.Carries force)
      fun after => after.Carries force := by
  rw [update]
  simp only [ends_bind, ends_get, ends_stepFields, ends_part]
  cases found : body.step with
  | none =>
      exact carries
  | some step =>
      have fits := carries.fits found
      have force_eq := carries.eq_some found
      have moves (moved : NodalField α) (same : moved.layout = step.newPositions.layout) :
          { body with step := some { step with newPositions := moved } }.Carries force :=
        carries.withStep { step with newPositions := moved }
          ⟨fits.halfPositions, same.trans fits.newPositions, fits.halfForce⟩
          force_eq
      simp only
      generalize displaced :
        NodalField.displace shape.dim _ body.positions step.newPositions = result
      cases result with
      | error stop moved =>
          exact moves moved (layout_of_displace (Or.inr ⟨stop, displaced⟩))
      | ok value moved =>
          have layout := layout_of_displace (Or.inl displaced)
          simp only [ends_collective, alone_close serial, ends_set]
          exact moves { moved with synchronized := true } layout

theorem ends_interpolateOnto (serial : seat.size = 1) (carries : body.Carries force)
    {objectName : String} {flow : FlowTransfer α σ} {level : TimeLevel} {time : α} {state : σ} :
    (interpolateOnto seat objectName flow level time part).Ends (body, state)
      (fun _ after => after.1.Carries force) fun after => after.1.Carries force := by
  rw [interpolateOnto]
  simp only [ends_bind, ends_get, ends_stepFields, ends_part, ends_attempt]
  cases found : body.step with
  | none =>
      exact carries
  | some step =>
      simp only
      cases flow.interpolate part (body.positionsAt step level) time
          (body.flowVelocityAt step level, state) with
      | error stop after =>
          exact carries.withFlowVelocity found level after.1
      | ok value after =>
          have sampled := carries.withFlowVelocity found level after.1
          simp only
          cases again : (body.withFlowVelocity step level after.1).step with
          | none =>
              exact sampled
          | some step' =>
              simp only [ends_collective, alone_close serial, ends_set]
              exact sampled.withFlowVelocity again level _

theorem ends_expandVelocity (serial : seat.size = 1) (carries : body.Carries force)
    {objectName : String} {velocity : RigidVelocity α} {time : α} :
    (expandVelocity seat objectName part velocity time).Ends body
      (fun _ after => after.Carries force) fun after => after.Carries force := by
  rw [expandVelocity]
  simp only [ends_bind, ends_get, ends_stepFields, ends_part, ends_attempt]
  cases found : body.step with
  | none =>
      exact carries
  | some step =>
      have fits := carries.fits found
      have force_eq := carries.eq_some found
      have expands (expanded : NodalField α) :
          { body with step := some { step with constrainedVelocity := expanded } }.Carries force :=
        carries.withStep { step with constrainedVelocity := expanded }
          ⟨fits.halfPositions, fits.newPositions, fits.halfForce⟩ force_eq
      simp only
      cases body.nodalVelocity velocity step.halfPositions body.halfMass.center time
          step.constrainedVelocity with
      | error stop expanded =>
          exact expands expanded
      | ok value expanded =>
          simp only [ends_collective, alone_close serial, ends_set, ends_pure]
          exact expands { expanded with synchronized := true }

/-- What is done to a structure to compute its mass properties. -/
theorem ends_computeMass (carries : body.Carries force) {objectName : String} {order : Nat} :
    (do
      let body ← get
      let mass ← (Action.collective (body.massAt body.positions order)).attempt objectName
        (.computeMass part)
      set (body.withMass mass) : Action α (RigidStructure shape α) Unit).Ends body
      (fun _ after => after.Carries force) fun after => after.Carries force := by
  simp only [ends_bind, ends_get, ends_attempt, ends_collective, ends_set]
  split
  · exact carries.congr rfl rfl rfl rfl rfl rfl
  · exact carries

/-! ## Operations that replace the force -/

/-- A part of a composite that fits is stored, times the factor. -/
theorem ends_storeForce (serial : seat.size = 1) {current source : NodalField α}
    (carries : body.Carries (some current)) {composite : CompositeField α} {factor : α}
    (found : composite.parts[part]? = some source)
    (compatible : current.compatible source = true) :
    (storeForce seat composite factor part).Ends body
      (fun _ after => after.Carries (some { source.scale factor with synchronized := true }))
      fun _ => False := by
  rcases Option.map_eq_some_iff.mp carries.force_eq with ⟨step, opened, rfl⟩
  have fits := carries.fits opened
  have copied : step.halfForce.copyFrom source = .ok source :=
    copyFrom_of_compatible compatible
  have sameLayout := layout_eq_of_compatible compatible
  rw [storeForce, found]
  simp only [ends_bind, ends_get, ends_stepFields, opened, copied, ends_set, ends_collective,
    alone_close serial]
  exact carries.withStep
    { step with halfForce := { source.scale factor with synchronized := true } }
    ⟨fits.halfPositions, fits.newPositions, sameLayout.trans fits.halfForce⟩ rfl

/-- A force that is integrated is stored; one that cannot be integrated is not. -/
theorem ends_integrateForce (serial : seat.size = 1) (carries : body.Carries force)
    {objectName : String} {order : Nat} {source : NodalField α} :
    (integrateForce seat objectName order part source).Ends body
      (fun _ after => force.isSome = true ∧
        after.Carries (some { source with synchronized := true }))
      fun after => after.Carries force := by
  rw [integrateForce]
  simp only [ends_bind, ends_get, ends_stepFields]
  cases opened : body.step with
  | none =>
      exact carries
  | some step =>
      have fits := carries.fits opened
      have force_eq := carries.eq_some opened
      by_cases compatible : step.halfForce.compatible source = true
      · have copied : step.halfForce.copyFrom source = .ok source :=
          copyFrom_of_compatible compatible
        have sameLayout := (layout_eq_of_compatible compatible).trans fits.halfForce
        rcases exists_alone_generalizedForce carries.sound.block carries.sound.owned
          carries.sound.cells fits.halfPositions
          (show ({ source with synchronized := true } : NodalField α).layout = body.layout from
            sameLayout)
          body.halfMass.center (shape.rule order) with ⟨total, integrated⟩
        simp only [copied, ends_bind, ends_set, ends_collective, alone_close serial,
          ends_attempt, integrated]
        refine ⟨by rw [force_eq]; rfl, ?_⟩
        exact carries.withStep
          { step with halfForce := { source with synchronized := true } }
          ⟨fits.halfPositions, fits.newPositions, sameLayout⟩ rfl
      · have refused : step.halfForce.copyFrom source = .error .incompatibleLayouts :=
          copyFrom_of_incompatible compatible
        simp only [refused, ends_attempt, ends_refuse]
        exact carries

omit [Scalar α] in
/-- Committing a step takes its fields away, also if the commit stops. -/
theorem ends_commit (carries : body.Carries force) {objectName : String}
    {newForces : Option (List (NodalField α))} :
    (commit objectName newForces part).Ends body
      (fun _ after => force.isSome = true ∧ after.Carries none) fun after => after.Carries none := by
  rw [commit]
  simp only [ends_bind, ends_get]
  cases opened : body.step with
  | none =>
      have force_eq : force = none := by
        rw [← carries.force_eq, halfForce?, opened]
        rfl
      rw [force_eq] at carries
      exact carries
  | some step =>
      have fits := carries.fits opened
      have some_force : force.isSome = true := by
        rw [carries.eq_some opened]
        rfl
      have committed : (body.committed step).Carries none := {
        sound := {
          block := carries.sound.block
          owned := carries.sound.owned
          cells := carries.sound.cells
          positions := fits.newPositions
          constraintForce := carries.sound.constraintForce
          step := by rintro step ⟨⟩ }
        force_eq := rfl }
      have replaced (force : NodalField α) (same : force.layout = body.layout) :
          { body.committed step with constraintForce := force }.Carries none := {
        sound := {
          block := carries.sound.block
          owned := carries.sound.owned
          cells := carries.sound.cells
          positions := fits.newPositions
          constraintForce := same
          step := by rintro step ⟨⟩ }
        force_eq := rfl }
      simp only [ends_bind, ends_set]
      cases newForces.bind fun forces => forces[part]? with
      | none =>
          exact ⟨some_force, committed.congr rfl rfl rfl rfl rfl rfl⟩
      | some source =>
          by_cases compatible : (body.committed step).constraintForce.compatible source = true
          · have copied : (body.committed step).constraintForce.copyFrom source = .ok source :=
              copyFrom_of_compatible compatible
            have sameLayout := (layout_eq_of_compatible compatible).trans
              carries.sound.constraintForce
            simp only [copied]
            exact ⟨some_force, (replaced source sameLayout).congr rfl rfl rfl rfl rfl rfl⟩
          · have refused : (body.committed step).constraintForce.copyFrom source =
                .error .incompatibleLayouts :=
              copyFrom_of_incompatible compatible
            simp only [refused]
            exact committed

/-! ## Operations on the flow -/

omit [Scalar α] in
/-- Spreading calls the flow once, with the force of the half time. -/
theorem ends_spreadFrom {objectName : String} {flow : FlowTransfer α σ} {level : TimeLevel}
    {time : α} {state : σ} {post : Unit → RigidStructure shape α × σ → Prop}
    {stopped : RigidStructure shape α × σ → Prop} :
    (spreadFrom objectName flow level time part).Ends (body, state) post stopped ↔
      match body.step with
      | none => stopped (body, state)
      | some step =>
        match flow.spread part (body.positionsAt step level) step.halfForce time state with
        | .ok _ after => post () (body, after)
        | .error _ after => stopped (body, after) := by
  rw [spreadFrom]
  simp only [ends_bind, ends_get, ends_stepFields, ends_attempt, ends_part]
  cases body.step with
  | none =>
      rfl
  | some step =>
      simp only
      cases flow.spread part (body.positionsAt step level) step.halfForce time state <;> rfl

omit [Scalar α] in
theorem ends_spreadFrom_of_keeps {objectName : String} {flow : FlowTransfer α σ}
    {level : TimeLevel} {time : α} {kept : σ → Prop} (keeps : flow.SpreadsKeep kept) {state : σ}
    (before : kept state) :
    (spreadFrom objectName flow level time part).Ends (body, state) (fun _ after => kept after.2)
      fun after => kept after.2 := by
  rw [ends_spreadFrom]
  cases body.step with
  | none =>
      exact before
  | some step =>
      have spread := keeps part (body.positionsAt step level) step.halfForce time state before
      simp only
      generalize flow.spread part (body.positionsAt step level) step.halfForce time state = result at *
      cases result <;> exact spread

theorem ends_interpolateOnto_of_keeps {objectName : String} {flow : FlowTransfer α σ}
    {level : TimeLevel} {time : α} {kept : σ → Prop} (keeps : flow.SamplesKeep kept) {state : σ}
    (before : kept state) :
    (interpolateOnto seat objectName flow level time part).Ends (body, state)
      (fun _ after => kept after.2) fun after => kept after.2 := by
  rw [interpolateOnto]
  simp only [ends_bind, ends_get, ends_stepFields, ends_part, ends_attempt]
  cases body.step with
  | none =>
      exact before
  | some step =>
      have sampled := keeps part (body.positionsAt step level) time
        (body.flowVelocityAt step level) state before
      simp only
      generalize flow.interpolate part (body.positionsAt step level) time
        (body.flowVelocityAt step level, state) = result at *
      cases result with
      | error stop after =>
          exact sampled
      | ok value after =>
          simp only [ends_collective, ends_set]
          split
          · split <;> exact sampled
          · exact sampled

end Coordinator

end ImmersedBody
