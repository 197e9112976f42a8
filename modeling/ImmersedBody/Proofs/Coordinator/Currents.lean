import ImmersedBody.Proofs.Coordinator.Calls
import ImmersedBody.Proofs.Coordinator.Frames

/-!
# What holds at the current time during a step

While a step is open, calls of a coordinator work on the fields of the step and
only read what holds at the current time.  There are two exceptions: the flow
can be sampled at the current time, and the composite constraint force of the
new time is handed out to be changed.

The main result is `ends_serve_in_step`.  It is stated for every view of a
structure that shows neither the fields of the step nor what holds at the half
and at the new time.
-/

namespace ImmersedBody

open ImmersedBody.Action

variable {α σ τ : Type} {shape : Shape}

/-! ## The protocol -/

namespace StepProtocol

/-- A state of the protocol in the same step, or out of a step as before. -/
structure SameStep (protocol after : StepProtocol α) : Prop where
  window_eq : after.window = protocol.window
  tolerance_eq : after.tolerance = protocol.tolerance
  inStep_eq : after.phase.inStep = protocol.phase.inStep

variable {protocol : StepProtocol α}

theorem SameStep.trans {between after : StepProtocol α} (first : protocol.SameStep between)
    (later : between.SameStep after) : protocol.SameStep after where
  window_eq := later.window_eq.trans first.window_eq
  tolerance_eq := later.tolerance_eq.trans first.tolerance_eq
  inStep_eq := later.inStep_eq.trans first.inStep_eq

/-- An operation within a step leads to a phase of the step. -/
theorem sameStep_of_after {operation : Operation} {next : Phase}
    (accepted : protocol.phase.after operation = .ok next) (notOpening : operation ≠ .preprocess)
    (notClosing : operation ≠ .postprocess) {after : StepProtocol α}
    (window : after.window = protocol.window) (tolerance : after.tolerance = protocol.tolerance)
    (phase : after.phase = next) : protocol.SameStep after := by
  rcases Phase.inStep_of_after accepted notOpening notClosing with ⟨before, inside⟩
  exact ⟨window, tolerance, by rw [phase, inside, before]⟩

theorem sameStep_of_consumeRequest {outcome : StepOutcome α Bool}
    (consumed : protocol.consumeRequest = .ok outcome) : protocol.SameStep outcome.protocol := by
  rcases consumeRequest_eq_ok_iff.mp consumed with ⟨next, window, accepted, -, rfl⟩
  split
  · exact sameStep_of_after accepted nofun nofun rfl rfl rfl
  · exact ⟨rfl, rfl, rfl⟩

theorem sameStep_of_consumeForce {outcome : StepOutcome α Bool}
    (consumed : protocol.consumeForce = .ok outcome) : protocol.SameStep outcome.protocol := by
  rcases consumeForce_eq_ok_iff.mp consumed with
    ⟨-, next, window, accepted, -, rfl⟩ | ⟨-, window, -, rfl⟩
  · exact sameStep_of_after accepted nofun nofun rfl rfl rfl
  · exact ⟨rfl, rfl, rfl⟩

theorem sameStep_of_advance {rule : AdvanceRule} {outcome : StepOutcome α (StepWindow α)}
    (advanced : protocol.advance rule = .ok outcome) : protocol.SameStep outcome.protocol := by
  rcases advance_eq_ok_iff.mp advanced with ⟨next, window, accepted, -, -, rfl⟩
  exact sameStep_of_after accepted nofun nofun rfl rfl rfl

theorem sameStep_of_record {operation : Operation}
    (coordinated : operation = .computeForce ∨ operation = .setVelocity)
    {outcome : StepOutcome α (StepWindow α)} (recorded : protocol.record operation = .ok outcome) :
    protocol.SameStep outcome.protocol := by
  rcases record_eq_ok_iff.mp recorded with ⟨next, window, accepted, -, rfl⟩
  have notOpening : operation ≠ .preprocess := by
    rcases coordinated with rfl | rfl <;> exact nofun
  have notClosing : operation ≠ .postprocess := by
    rcases coordinated with rfl | rfl <;> exact nofun
  exact sameStep_of_after accepted notOpening notClosing rfl rfl rfl

section

variable [Scalar α]

theorem sameStep_of_requestInterpolation {time : α} {outcome : StepOutcome α Unit}
    (requested : protocol.requestInterpolation time = .ok outcome) :
    protocol.SameStep outcome.protocol := by
  rcases requestInterpolation_eq_ok_iff.mp requested with ⟨window, -, level, -, -, rfl⟩
  exact ⟨rfl, rfl, rfl⟩

theorem sameStep_of_produceForce {time : α} {outcome : StepOutcome α TimeLevel}
    (produced : protocol.produceForce time = .ok outcome) :
    protocol.SameStep outcome.protocol := by
  rcases produceForce_eq_ok_iff.mp produced with ⟨level, -, next, window, accepted, -, rfl⟩
  exact sameStep_of_after accepted nofun nofun rfl rfl rfl

end

/-- Within a step no other one is opened. -/
theorem exists_refusal_of_beginStep [Scalar α] (inStep : protocol.phase.inStep = true)
    (current new : α) : ∃ violation, protocol.beginStep current new = .error violation := by
  cases begun : protocol.beginStep current new with
  | error violation =>
      exact ⟨violation, rfl⟩
  | ok outcome =>
      have outside := (of_beginStep begun).1
      rw [inStep] at outside
      cases outside

end StepProtocol

/-! ## One structure -/

/-- A view of a structure that shows only what holds at the current time. -/
structure RigidStructure.ShowsCurrent (view : RigidStructure shape α → τ) : Prop where
  step : ∀ (body : RigidStructure shape α) fields fields', body.step = some fields →
    view { body with step := some fields' } = view body
  halfMass : ∀ (body : RigidStructure shape α) halfMass, view { body with halfMass } = view body
  velocity : ∀ (body : RigidStructure shape α) half new,
    view { body with velocity := ⟨body.velocity.current, half, new⟩ } = view body

/-- A view of a structure that shows no other fields of a step than the positions. -/
def RigidStructure.HidesExchange (view : RigidStructure shape α → τ) : Prop :=
  ∀ (body : RigidStructure shape α) fields fields', body.step = some fields →
    fields'.halfPositions = fields.halfPositions → fields'.newPositions = fields.newPositions →
      view { body with step := some fields' } = view body

/-- A view of a structure that shows neither the forces nor the constrained velocity of a step. -/
def RigidStructure.HidesSolver (view : RigidStructure shape α → τ) : Prop :=
  ∀ (body : RigidStructure shape α) fields fields', body.step = some fields →
    fields'.halfPositions = fields.halfPositions → fields'.newPositions = fields.newPositions →
      fields'.halfVelocity = fields.halfVelocity → fields'.newVelocity = fields.newVelocity →
        view { body with step := some fields' } = view body

theorem RigidStructure.HidesExchange.hidesSolver {view : RigidStructure shape α → τ}
    (hides : HidesExchange view) : HidesSolver view :=
  fun body fields fields' opened half new _ _ => hides body fields fields' opened half new

theorem RigidStructure.ShowsCurrent.hidesExchange {view : RigidStructure shape α → τ}
    (shows : ShowsCurrent view) : HidesExchange view :=
  fun body fields fields' opened _ _ => shows.step body fields fields' opened

/-- A view of a structure that does not show the current velocity of the flow. -/
def RigidStructure.HidesFlow (view : RigidStructure shape α → τ) : Prop :=
  ∀ body lagrangianVelocity, view { body with lagrangianVelocity } = view body

namespace Coordinator

open RigidStructure

variable {view : RigidStructure shape α → τ} {part : Nat} {seat : Seat}

/-- Other fields of the step do not show. -/
theorem view_withFlowVelocity (hides : HidesExchange view) {body : RigidStructure shape α}
    {step : StepFields α} (opened : body.step = some step) {level : TimeLevel}
    (sampled : level = .current → HidesFlow view) (velocity : NodalField α) :
    view (body.withFlowVelocity step level velocity) = view body := by
  cases level with
  | current =>
      exact sampled rfl body velocity
  | half | new =>
      exact hides body step _ opened rfl rfl

section

variable [Scalar α]

theorem fixes_predict (shows : ShowsCurrent view) {objectName : String} {order : Nat}
    {window : StepWindow α} : Fixes view (predict seat objectName order window part) := by
  intro body
  rw [predict]
  simp only [ends_bind, ends_get, ends_stepFields, ends_part]
  cases opened : body.step with
  | none =>
      trivial
  | some step =>
      have moves (step' : StepFields α) : view { body with step := some step' } = view body :=
        shows.step body step step' opened
      simp only
      cases NodalField.displace shape.dim _ body.positions step.halfPositions with
      | error stop moved =>
          exact moves _
      | ok value moved =>
          simp only [ends_collective, ends_set, ends_attempt]
          cases (moved.close seat).alone with
          | error stop =>
              exact moves _
          | ok closed =>
              simp only
              split
              · exact (shows.halfMass _ _).trans (moves _)
              · exact moves _

theorem fixes_update (shows : ShowsCurrent view) {window : StepWindow α} :
    Fixes view (update seat window part) := by
  intro body
  rw [update]
  simp only [ends_bind, ends_get, ends_stepFields, ends_part]
  cases opened : body.step with
  | none =>
      trivial
  | some step =>
      have moves (step' : StepFields α) : view { body with step := some step' } = view body :=
        shows.step body step step' opened
      simp only
      cases NodalField.displace shape.dim _ body.positions step.newPositions with
      | error stop moved =>
          exact moves _
      | ok value moved =>
          simp only [ends_collective, ends_set]
          cases (moved.close seat).alone <;> exact moves _

theorem fixes_interpolateOnto (hides : HidesExchange view) {objectName : String}
    {flow : FlowTransfer α σ} {level : TimeLevel} {time : α}
    (sampled : level = .current → HidesFlow view) :
    Fixes (fun state => view state.1) (interpolateOnto seat objectName flow level time part) := by
  rintro ⟨body, state⟩
  rw [interpolateOnto]
  simp only [ends_bind, ends_get, ends_stepFields, ends_part, ends_attempt]
  cases opened : body.step with
  | none =>
      trivial
  | some step =>
      simp only
      cases flow.interpolate part (body.positionsAt step level) time
          (body.flowVelocityAt step level, state) with
      | error stop after =>
          exact view_withFlowVelocity hides opened sampled _
      | ok value after =>
          have first := view_withFlowVelocity hides opened sampled after.1
          simp only
          cases again : (body.withFlowVelocity step level after.1).step with
          | none =>
              exact first
          | some step' =>
              simp only [ends_collective, ends_set]
              split
              · exact (view_withFlowVelocity hides again sampled _).trans first
              · exact first

theorem fixes_storeForce (hides : HidesSolver view) {composite : CompositeField α} {factor : α} :
    Fixes view (storeForce seat composite factor part) := by
  intro body
  rw [storeForce]
  cases composite.parts[part]? with
  | none =>
      rfl
  | some source =>
      simp only [ends_bind, ends_get, ends_stepFields]
      cases opened : body.step with
      | none =>
          trivial
      | some step =>
          simp only
          cases step.halfForce.copyFrom source with
          | error e =>
              rfl
          | ok copied =>
              simp only [ends_bind, ends_set, ends_collective]
              split <;> exact hides body step _ opened rfl rfl rfl rfl

theorem fixes_integrateForce (hides : HidesSolver view) {objectName : String} {order : Nat}
    {force : NodalField α} : Fixes view (integrateForce seat objectName order part force) := by
  intro body
  rw [integrateForce]
  simp only [ends_bind, ends_get, ends_stepFields]
  cases opened : body.step with
  | none =>
      trivial
  | some step =>
      simp only
      cases step.halfForce.copyFrom force with
      | error e =>
          simp only [ends_attempt, ends_refuse]
      | ok copied =>
          simp only [ends_bind, ends_set, ends_collective, ends_attempt]
          split
          · split <;> exact hides body step _ opened rfl rfl rfl rfl
          · exact hides body step _ opened rfl rfl rfl rfl

omit [Scalar α] in
theorem fixes_spreadFrom {objectName : String} {flow : FlowTransfer α σ} {level : TimeLevel}
    {time : α} :
    Fixes (fun state => view state.1) (spreadFrom objectName flow level time part) := by
  rintro ⟨body, state⟩
  rw [ends_spreadFrom]
  cases body.step with
  | none =>
      rfl
  | some step =>
      simp only
      cases flow.spread part (body.positionsAt step level) step.halfForce time state <;> trivial

theorem fixes_expandVelocity (hides : HidesSolver view) {objectName : String}
    {velocity : RigidVelocity α} {time : α} :
    Fixes view (expandVelocity seat objectName part velocity time) := by
  intro body
  rw [expandVelocity]
  simp only [ends_bind, ends_get, ends_stepFields, ends_part, ends_attempt]
  cases opened : body.step with
  | none =>
      trivial
  | some step =>
      simp only
      cases body.nodalVelocity velocity step.halfPositions body.halfMass.center time
          step.constrainedVelocity with
      | error stop expanded =>
          exact hides body step _ opened rfl rfl rfl rfl
      | ok value expanded =>
          simp only [ends_collective, ends_set, ends_pure]
          split <;> exact hides body step _ opened rfl rfl rfl rfl

end

/-! ## The coordinator -/

/-- What a coordinator shows of a step, with the structures seen through a view of each of them. -/
structure Overview (α τ : Type) where
  settings : Settings α
  seat : Seat
  window : Option (StepWindow α)
  tolerance : α
  inStep : Bool
  initialized : Bool
  /-- Whether there are composite constraint forces of the current time. -/
  hasCurrentForces : Bool
  newForces : Option (CompositeField α)
  bodies : List τ

/-- What a coordinator shows of a step. -/
def overview (view : RigidStructure shape α → τ) (c : Coordinator shape α) : Overview α τ where
  settings := c.settings
  seat := c.seat
  window := c.protocol.window
  tolerance := c.protocol.tolerance
  inStep := c.protocol.phase.inStep
  initialized := c.initialized
  hasCurrentForces := c.currentForces.isSome
  newForces := c.newForces
  bodies := c.structures.map view

theorem readsThrough_overview : ReadsThrough view (overview view) := by
  intro c structures same
  rw [overview, same]
  rfl

theorem overview_withProtocol {c : Coordinator shape α} {protocol : StepProtocol α}
    (same : c.protocol.SameStep protocol) :
    overview view { c with protocol } = overview view c := by
  rw [overview, same.window_eq, same.tolerance_eq, same.inStep_eq]
  rfl

/-- Operations of the protocol within a step do not show. -/
theorem fixes_overview_committing {β : Type}
    {operation : StepProtocol α → Except (Violation α) (StepOutcome α β)}
    (same : ∀ protocol outcome, operation protocol = .ok outcome →
      protocol.SameStep outcome.protocol) :
    Fixes (overview view) (committing operation : Work shape α β) :=
  fixes_committing fun c outcome accepted =>
    overview_withProtocol (same c.protocol outcome accepted)

/-- Changes of structures that do not show. -/
theorem fixes_changeStructure {change : RigidStructure shape α → RigidStructure shape α}
    (same : ∀ body, view (change body) = view body) :
    Fixes (overview view) (changeStructure part change : Work shape α Unit) := by
  apply fixes_modify
  intro c
  apply readsThrough_overview
  apply List.ext_getElem
  · rw [List.length_map, List.length_map, List.length_modify]
  · intro i after before
    rw [List.getElem_map, List.getElem_map, List.getElem_modify]
    split
    · exact same _
    · rfl

variable [Scalar α]

theorem fixes_requestInterpolation {time : α} :
    Fixes (overview view) (requestInterpolation time : Work shape α Unit) :=
  fixes_attempting (fixes_overview_committing fun _ _ requested =>
    StepProtocol.sameStep_of_requestInterpolation requested)

theorem fixes_advance (shows : ShowsCurrent view) {rule : AdvanceRule} {current new : α} :
    Fixes (overview view) (advance rule current new : Work shape α Unit) := by
  apply fixes_bind fixes_get
  intro c
  apply fixes_bind fixes_checking
  intro _
  apply fixes_bind (fixes_attempting (fixes_overview_committing fun _ _ advanced =>
    StepProtocol.sameStep_of_advance advanced))
  intro window
  cases rule with
  | forwardEuler =>
      exact fixes_bind (fixes_forEachStructure readsThrough_overview fun _ =>
        fixes_predict shows) fun _ => fixes_tell _
  | midpoint =>
      exact fixes_bind (fixes_forEachStructure readsThrough_overview fun _ =>
        fixes_update shows) fun _ => fixes_tell _
  | trapezoidal =>
      exact fixes_tell _

theorem fixes_setForce (hides : HidesSolver view) {composite : CompositeField α}
    {time factor : α} :
    Fixes (overview view) (setForce composite time factor : Work shape α Unit) := by
  apply fixes_bind fixes_get
  intro c
  apply fixes_bind fixes_checking
  intro _
  apply fixes_bind
  · intro c'
    rw [ends_of]
    cases matchForces c.name 0 c.structures composite.parts <;> rfl
  · intro _
    apply fixes_bind (fixes_forEachStructure readsThrough_overview fun _ => fixes_storeForce hides)
    intro _
    exact fixes_bind (fixes_attempting (fixes_overview_committing fun _ _ produced =>
      StepProtocol.sameStep_of_produceForce produced)) fun _ => fixes_pure _

theorem fixes_computeForce (hides : HidesSolver view) {force : NodalField α} :
    Fixes (overview view) (computeForce part force : Work shape α _) := by
  apply fixes_bind fixes_get
  intro c
  apply fixes_bind fixes_checking
  intro _
  apply fixes_bind (fixes_onStructure readsThrough_overview (fixes_integrateForce hides))
  intro total
  exact fixes_bind (fixes_overview_committing fun _ _ recorded =>
    StepProtocol.sameStep_of_record (Or.inl rfl) recorded) fun _ => fixes_pure _

theorem fixes_updateVelocity (shows : ShowsCurrent view) {dofs : Vector α shape.dim.rigidSize} :
    Fixes (overview view) (updateVelocity part dofs : Work shape α Unit) :=
  fixes_bind fixes_checking fun _ => fixes_changeStructure fun body => shows.velocity body _ _

theorem fixes_spread {flow : FlowTransfer α σ} {time : α} :
    Fixes (fun state : Coordinator shape α × σ => overview view state.1) (spread flow time) := by
  apply fixes_bind fixes_get
  intro state
  apply fixes_bind (fixes_first fixes_checking)
  intro level
  apply fixes_bind (fixes_first (fixes_attempting (fixes_overview_committing fun _ _ consumed =>
    StepProtocol.sameStep_of_consumeForce consumed)))
  intro pending
  exact fixes_ite (fixes_forStructures readsThrough_overview fun _ => fixes_spreadFrom)
    (fixes_pure ())

theorem fixes_setBodyVelocity (hides : HidesSolver view) {dofs : Vector α shape.dim.rigidSize} :
    Fixes (fun state : Coordinator shape α × CompositeField α => overview view state.1)
      (setBodyVelocity part dofs) := by
  rintro ⟨c, composite⟩
  rw [setBodyVelocity, ends_of, Task.alone_bind]
  have expands : Fixes (overview view) (do
      let window ← checking .setBodyVelocity fun c => do
        c.checkPart part
        c.checkParts composite
        c.protocol.check .setVelocity
      onStructure part (expandVelocity c.seat c.name part (.ofDofs shape.dim dofs) window.new) :
        Work shape α (Option (NodalField α))) :=
    fixes_bind fixes_checking fun _ =>
      fixes_onStructure readsThrough_overview (fixes_expandVelocity hides)
  have records : Fixes (overview view)
      (committing fun p => p.record .setVelocity : Work shape α (StepWindow α)) :=
    fixes_overview_committing fun _ _ recorded =>
      StepProtocol.sameStep_of_record (Or.inr rfl) recorded
  have expanded := expands c
  rw [Ends, Action.alone] at expanded
  generalize (on _ c).alone = result at *
  rcases result with ⟨stop | velocity, after⟩
  · exact expanded
  · cases velocity with
    | none =>
        exact expanded
    | some velocity =>
        cases composite.parts[part]? with
        | none =>
            exact expanded
        | some target =>
            cases copied : target.copyFrom velocity with
            | error refused =>
                simp only [copied]
                exact expanded
            | ok field =>
                have recorded := records after
                rw [Ends, Action.alone] at recorded
                simp only [copied, Task.alone_bind]
                generalize (on _ after).alone = result at *
                rcases result with ⟨_ | window, final⟩ <;> exact recorded.trans expanded

/-- Sampling the flow shows only if it takes place at the current time. -/
theorem ends_interpolate_in_step (hides : HidesExchange view) {flow : FlowTransfer α σ} {time : α}
    {c : Coordinator shape α} {state : σ}
    (sampled : ∀ window, c.protocol.window = some window →
      window.match? c.settings.timeTolerance time [.current, .half, .new] = some .current →
        HidesFlow view) :
    (interpolate flow time).Ends (c, state)
      (fun _ after => overview view after.1 = overview view c)
      fun after => overview view after.1 = overview view c := by
  rw [interpolate]
  simp only [ends_bind, ends_get, ends_first, ends_checking, ends_attempting]
  cases leveled : (do
      let window ← c.protocol.check .interpolateVelocity
      c.levelOf .interpolateVelocity window time) with
  | error violation =>
      trivial
  | ok level =>
      have hidden : level = .current → HidesFlow view := by
        rintro rfl
        rcases bind_eq_ok_iff.mp leveled with ⟨window, checked, found⟩
        rcases StepProtocol.check_eq_ok_iff.mp checked with ⟨next, -, opened⟩
        apply sampled window opened
        rw [levelOf] at found
        split at found
        next matched =>
          cases found
          exact matched
        next =>
          cases found
      have consumes : Fixes (overview view)
          (committing StepProtocol.consumeRequest : Work shape α Bool) :=
        fixes_overview_committing fun _ _ consumed =>
          StepProtocol.sameStep_of_consumeRequest consumed
      apply (consumes c).imp _ fun _ same => same
      intro requested after same
      rw [← same]
      have samples : Fixes (fun state : Coordinator shape α × σ => overview view state.1)
          (forStructures (interpolateOnto c.seat c.name flow level time)) :=
        fixes_forStructures readsThrough_overview fun _ => fixes_interpolateOnto hides hidden
      exact fixes_ite samples (fixes_pure ()) (after, state)

/-! ## Calls that exchange data -/

/--
A call that exchanges data with the flow or the solver, or that only reads.
Sampling the flow and handing out forces are not among them, since they can show.
-/
def Call.Exchanges : Call shape α → Prop
  | listen _ | createComposite | fluidCalls _ _ _ | requestInterpolation _ | readVelocities _ _ _
  | skipForce _ | setForce _ _ _ | computeForce _ _ | setBodyVelocity _ _ _ | spread _
  | restartRecord => True
  | _ => False

theorem fixes_serve_of_exchanges (hides : HidesSolver view) {call : Call shape α}
    (exchanges : call.Exchanges) (flow : FlowTransfer α σ) :
    Fixes (fun state : Coordinator shape α × σ => overview view state.1) (call.serve flow) := by
  cases call with
  | listen listener =>
      exact fixes_first (fixes_modify fun _ => rfl)
  | createComposite =>
      exact fixes_bind fixes_get fun _ => fixes_bind (fixes_collective _) fun _ => fixes_pure _
  | readVelocities composite time factor =>
      rintro ⟨c, state⟩
      simp only [Call.serve, ends_of]
      cases c.readVelocities time factor composite <;> rfl
  | setBodyVelocity part dofs composite =>
      rintro ⟨c, state⟩
      have sets : Fixes
          (fun state : Coordinator shape α × CompositeField α => overview view state.1)
          (Coordinator.setBodyVelocity part dofs) := fixes_setBodyVelocity hides
      have set := sets (c, composite)
      simp only [Call.serve, ends_of, Task.alone_bind]
      rw [Ends, Action.alone] at set
      generalize ((Coordinator.setBodyVelocity part dofs).on (c, composite)).alone = result at *
      rcases result with ⟨_ | _, after⟩ <;> exact set
  | fluidCalls current new cycle | restartRecord =>
      exact fixes_pure ()
  | requestInterpolation time =>
      exact fixes_first fixes_requestInterpolation
  | skipForce time =>
      exact fixes_first (fixes_bind fixes_get fun _ => fixes_tell _)
  | setForce composite time factor =>
      exact fixes_first (fixes_setForce hides)
  | computeForce part force =>
      exact fixes_first (fixes_bind (fixes_computeForce hides) fun _ => fixes_pure ())
  | spread time =>
      exact fixes_spread
  | _ =>
      exact exchanges.elim

/-! ## Calls within a step -/

/-- What a call within a step makes of the composite constraint force of the new time. -/
def Call.leftForces (tolerance : α) (window : StepWindow α) (forces : CompositeField α) :
    Call shape α → CompositeField α
  | changeForces time change =>
      if window.match? tolerance time [.current, .new] = some .new then change forces else forces
  | _ => forces

/-- The forces of the new time are the only ones that show, and they are changed. -/
theorem ends_changeForces {time : α} {change : CompositeField α → CompositeField α}
    {c : Coordinator shape α} {window : StepWindow α} {forces : CompositeField α}
    (inStep : c.protocol.phase.inStep = true) (opened : c.protocol.window = some window)
    (allocated : c.newForces = some forces) :
    (changeForces time change).Ends c
      (fun _ after => overview view after =
        { overview view c with
          newForces := some
            ((Call.changeForces time change : Call shape α).leftForces c.protocol.tolerance window
              forces) })
      fun after => overview view after =
        { overview view c with
          newForces := some
            ((Call.changeForces time change : Call shape α).leftForces c.protocol.tolerance window
              forces) } := by
  have accepted : c.protocol.phase.after .getForce = .ok c.protocol.phase := by
    rw [Phase.after, if_pos inStep]
  have queried : c.protocol.queryForce time =
      .ok (window.match? c.protocol.tolerance time [.current, .new]) := by
    rw [StepProtocol.queryForce,
      StepProtocol.check_eq_ok_iff.mpr ⟨c.protocol.phase, accepted, opened⟩]
    rfl
  have same : overview view c = { overview view c with newForces := some forces } := by
    rw [← allocated]
    rfl
  rw [changeForces]
  simp only [ends_bind, ends_get, ends_checking, queried, Call.leftForces]
  rcases matched : window.match? c.protocol.tolerance time [.current, .new] with _ | level
  · simp only [ends_bind, ends_tell, ends_pure, reduceCtorEq, if_false]
    exact same
  · cases level with
    | current =>
        simp only [forcesAt]
        cases present : c.currentForces with
        | none =>
            exact same
        | some current =>
            simp only [ends_bind, ends_set, ends_pure, withForcesAt, overview, present, allocated,
              Option.isSome_some, Option.some.injEq, reduceCtorEq, if_false]
    | half =>
        exact same
    | new =>
        simp only [forcesAt, allocated, ends_bind, ends_set, ends_pure, if_true]
        rfl

/-- A call that samples the velocity of the flow at the current time of a step. -/
def Call.SamplesCurrent (tolerance : α) (window : StepWindow α) : Call shape α → Prop
  | interpolate time => window.match? tolerance time [.current, .half, .new] = some .current
  | _ => False

/--
A call within a step, other than its closing, changes nothing that shows but the
forces of the new time, whether it succeeds or stops.  What does not show the
velocity of the flow is not changed by sampling it either.
-/
theorem ends_serve_in_step (shows : ShowsCurrent view) {call : Call shape α}
    (notClosing : call ≠ .postprocess) {c : Coordinator shape α} {window : StepWindow α}
    {forces : CompositeField α}
    (inStep : c.protocol.phase.inStep = true) (initialized : c.initialized = true)
    (opened : c.protocol.window = some window) (allocated : c.newForces = some forces)
    (sampled : call.SamplesCurrent c.settings.timeTolerance window → HidesFlow view)
    (flow : FlowTransfer α σ) (state : σ) :
    (call.serve flow).Ends (c, state)
      (fun _ after => overview view after.1 =
        { overview view c with
          newForces := some (call.leftForces c.protocol.tolerance window forces) })
      fun after => overview view after.1 =
        { overview view c with
          newForces := some (call.leftForces c.protocol.tolerance window forces) } := by
  have unchanged : overview view c = { overview view c with newForces := some forces } := by
    rw [← allocated]
    rfl
  have fixed {action : Action α (Coordinator shape α × σ) Unit}
      (ends : action.Ends (c, state) (fun _ after => overview view after.1 = overview view c)
        fun after => overview view after.1 = overview view c) :
      action.Ends (c, state)
        (fun _ after => overview view after.1 = { overview view c with newForces := some forces })
        fun after =>
          overview view after.1 = { overview view c with newForces := some forces } := by
    rw [← unchanged]
    exact ends
  cases call with
  | postprocess =>
      exact absurd rfl notClosing
  | changeForces time change =>
      rw [Call.serve, ends_first]
      simp only [ends_bind, ends_pure]
      exact ends_changeForces inStep opened allocated
  | interpolate time =>
      apply fixed
      apply ends_interpolate_in_step shows.hidesExchange
      intro window' opened'
      rw [opened] at opened'
      cases opened'
      exact sampled
  | prepare =>
      apply fixed
      rw [Call.serve, ends_first, prepare, ends_bind, ends_get, if_pos initialized]
      rfl
  | preprocess current new =>
      apply fixed
      rcases StepProtocol.exists_refusal_of_beginStep inStep current new with ⟨violation, refused⟩
      rw [Call.serve, ends_first, preprocess, prepare]
      simp only [ends_bind, ends_get, initialized, if_true, ends_pure, ends_attempting,
        ends_committing, refused]
  | setVelocity part velocity =>
      apply fixed
      rw [Call.serve, ends_first, setVelocity, ends_bind, ends_checking]
      cases c.checkPart part with
      | error violation =>
          rfl
      | ok _ =>
          simp only [ends_bind, ends_get, inStep, if_true, ends_refuse]
  | restore record =>
      apply fixed
      rw [Call.serve, ends_first, restore, ends_bind, ends_get, if_pos inStep, ends_refuse]
  | advance rule current new =>
      exact fixed (fixes_first (fixes_advance shows) (c, state))
  | updateVelocity part dofs =>
      exact fixed (fixes_first (fixes_updateVelocity shows) (c, state))
  | _ =>
      refine fixed (fixes_serve_of_exchanges shows.hidesExchange.hidesSolver ?_ flow (c, state))
      trivial

end Coordinator

end ImmersedBody
