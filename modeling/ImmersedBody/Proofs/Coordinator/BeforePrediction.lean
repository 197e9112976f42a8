import ImmersedBody.Proofs.Coordinator.Masses
import ImmersedBody.Proofs.Coordinator.RejectedVelocities

/-!
# Before the prediction

Until the half time of a step has been predicted, no positions have been moved: the positions
of the new time are the current ones, and the mass properties are those of the current
positions.

An opening that fails can leave a step open that was never set up, with structures of an
earlier step that failed at its closing.  In such a step nothing can be predicted, since one
of the structures has no fields of a step.  So a coordinator `Awaits` a prediction if either
is the case, and every call keeps it so until there is one.
-/

namespace ImmersedBody.Coordinator

open ImmersedBody.Action RigidStructure

variable {α σ : Type} [Scalar α] {shape : Shape} {c : Coordinator shape α}
  {flow : FlowTransfer α σ} {state : σ} {call : Call shape α}

/-! ## What calls do to the prediction -/

omit [Scalar α] in
/-- Whether the half time has been predicted in the step. -/
def hasPrediction (c : Coordinator shape α) : Bool :=
  c.protocol.predicted

section

variable {β : Type}

omit [Scalar α] in
theorem fixes_hasPrediction_of_protocol {action : Action α (Coordinator shape α × σ) β}
    (fixes : Fixes (fun state : Coordinator shape α × σ => state.1.protocol) action) :
    Fixes (fun state : Coordinator shape α × σ => state.1.hasPrediction) action :=
  fun state => (fixes state).imp (fun _ _ same => congrArg StepProtocol.predicted same)
    fun _ same => congrArg StepProtocol.predicted same

omit [Scalar α] in
theorem fixes_hasPrediction_committing {what : Attempt}
    {operation : StepProtocol α → Except (Violation α) (StepOutcome α β)}
    (same : ∀ protocol outcome, operation protocol = .ok outcome →
      outcome.protocol.predicted = protocol.predicted) :
    Fixes hasPrediction (attempting what (committing operation) : Work shape α β) :=
  fixes_attempting (fixes_committing fun c outcome accepted => same c.protocol outcome accepted)

omit [Scalar α] in
theorem fixes_hasPrediction_onDemand {what : Attempt}
    {check : Coordinator shape α → Except (Violation α) β}
    {consume : StepProtocol α → Except (Violation α) (StepOutcome α Bool)}
    {each : Coordinator shape α → β → Nat → Action α (RigidStructure shape α × σ) Unit}
    (same : ∀ protocol outcome, consume protocol = .ok outcome →
      outcome.protocol.predicted = protocol.predicted) :
    Fixes (fun state : Coordinator shape α × σ => state.1.hasPrediction)
      (onDemand what check consume each) := by
  apply fixes_bind fixes_get
  intro state
  apply fixes_bind (fixes_first fixes_checking)
  intro value
  apply fixes_bind (fixes_first (fixes_hasPrediction_committing same))
  intro demanded
  exact fixes_ite (fixes_hasPrediction_of_protocol (fixes_protocol_forStructures _)) (fixes_pure ())

theorem fixes_hasPrediction_interpolate {time : α} :
    Fixes (fun state : Coordinator shape α × σ => state.1.hasPrediction)
      (interpolate flow time) := by
  rw [interpolate_eq_onDemand]
  apply fixes_hasPrediction_onDemand
  intro protocol outcome consumed
  rcases StepProtocol.consumeRequest_eq_ok_iff.mp consumed with ⟨_, _, -, -, rfl⟩
  split <;> rfl

theorem fixes_hasPrediction_spread {time : α} :
    Fixes (fun state : Coordinator shape α × σ => state.1.hasPrediction)
      (spread flow time) := by
  rw [spread_eq_onDemand]
  apply fixes_hasPrediction_onDemand
  intro protocol outcome consumed
  rcases StepProtocol.consumeForce_eq_ok_iff.mp consumed with
    ⟨-, _, _, -, -, rfl⟩ | ⟨-, _, -, rfl⟩ <;> rfl

end

/-- Only calls that open or close a step or advance positions change whether it is predicted. -/
theorem Sound.ends_serve_hasPrediction (sound : c.Sound) (flow : FlowTransfer α σ) (state : σ)
    (notOpening : ¬ call.Opens) (notClosing : call ≠ .postprocess)
    (notAdvancing : ∀ rule current new, call ≠ .advance rule current new) :
    (call.serve flow).Ends (c, state)
      (fun _ after => after.1.hasPrediction = c.hasPrediction)
      fun after => after.1.hasPrediction = c.hasPrediction := by
  have quiet {action : Action α (Coordinator shape α × σ) Unit}
      (fixes : Fixes (fun state : Coordinator shape α × σ => state.1.protocol) action) :
      action.Ends (c, state)
        (fun _ after => after.1.hasPrediction = c.hasPrediction)
        fun after => after.1.hasPrediction = c.hasPrediction :=
    fixes_hasPrediction_of_protocol fixes (c, state)
  cases call with
  | preprocess current new =>
      exact absurd trivial notOpening
  | postprocess =>
      exact absurd rfl notClosing
  | advance rule current new =>
      exact absurd rfl (notAdvancing rule current new)
  | prepare =>
      exact quiet (fixes_first fixes_protocol_prepare)
  | listen listener =>
      exact quiet (fixes_first (fixes_modify fun _ => rfl))
  | createComposite =>
      exact quiet (fixes_bind fixes_get fun _ =>
        fixes_bind (fixes_collective _) fun _ => fixes_pure ())
  | fluidCalls current new cycle | restartRecord =>
      exact quiet (fixes_pure ())
  | requestInterpolation time =>
      have requests : Fixes hasPrediction
          (Coordinator.requestInterpolation time : Work shape α Unit) := by
        apply fixes_hasPrediction_committing
        intro protocol outcome requested
        rcases StepProtocol.requestInterpolation_eq_ok_iff.mp requested with
          ⟨_, -, _, -, -, rfl⟩
        rfl
      exact fixes_first requests (c, state)
  | interpolate time =>
      exact fixes_hasPrediction_interpolate (c, state)
  | readVelocities composite time factor =>
      simp only [Call.serve, ends_of]
      cases c.readVelocities time factor composite <;> rfl
  | skipForce time =>
      exact quiet (fixes_first (fixes_bind fixes_get fun _ => fixes_tell _))
  | setForce composite time factor =>
      rw [Call.serve, ends_first]
      apply (ends_setForce_exact sound.serial).imp
      · rintro _ after ⟨-, outcome, produced, rfl⟩
        rcases StepProtocol.produceForce_eq_ok_iff.mp produced with ⟨_, -, _, _, -, -, rfl⟩
        rfl
      · rintro _ ⟨-, rfl⟩
        rfl
  | changeForces time change =>
      exact quiet (fixes_first
        (fixes_bind fixes_protocol_changeForces fun _ => fixes_pure ()))
  | computeForce part force =>
      rw [Call.serve, ends_first, ends_bind]
      apply (ends_computeForce_exact sound).imp
      · rintro total after ⟨-, -, outcome, recorded, rfl⟩
        rcases StepProtocol.record_eq_ok_iff.mp recorded with ⟨_, _, -, -, rfl⟩
        rfl
      · rintro _ ⟨-, rfl⟩
        rfl
  | setBodyVelocity part dofs composite =>
      have sets : (Coordinator.setBodyVelocity part dofs).Ends (c, composite) _ _ :=
        ends_setBodyVelocity_exact sound.serial
      rw [Call.serve, ends_of, Task.alone_bind]
      rw [Ends, Action.alone] at sets
      generalize ((Coordinator.setBodyVelocity part dofs).on (c, composite)).alone = result at *
      rcases result with ⟨_ | _, after⟩
      · rcases sets with ⟨rfl, -⟩ | ⟨_, _, _, -, -, rfl⟩ <;> rfl
      · rcases sets with ⟨_, _, _, outcome, -, -, recorded, rfl⟩
        rcases StepProtocol.record_eq_ok_iff.mp recorded with ⟨_, _, -, -, rfl⟩
        rfl
  | updateVelocity part dofs =>
      exact quiet (fixes_first fixes_protocol_updateVelocity)
  | setVelocity part velocity =>
      exact quiet (fixes_first fixes_protocol_setVelocity)
  | spread time =>
      exact fixes_hasPrediction_spread (c, state)
  | restore record =>
      exact quiet (fixes_first fixes_protocol_restore)

/-! ## Structures that have not been moved -/

/--
A structure in a step whose positions have not been moved to the new time, with the mass
properties of its positions.
-/
def Unmoved (order : Nat) (body : RigidStructure shape α) : Prop :=
  ∃ step, body.step = some step ∧ step.newPositions = body.positions ∧
    (body.massAt body.positions order).alone = .ok body.currentMass

theorem ignoresExchange_unmoved {order : Nat} :
    IgnoresExchange fun _ (body : RigidStructure shape α) => Unmoved order body where
  step := by
    rintro _ body fields fields' opened - new ⟨step, found, unmoved, weighed⟩
    rw [opened, Option.some.injEq] at found
    subst found
    exact ⟨fields', rfl, new.trans unmoved, weighed⟩
  flow := fun _ _ _ unmoved => unmoved

/-- Computing the mass properties once more does not move anything. -/
theorem Unmoved.withMass {order : Nat} {body : RigidStructure shape α} {mass : MassProperties α}
    (unmoved : Unmoved order body)
    (computed : (body.massAt body.positions order).alone = .ok mass) :
    Unmoved order (body.withMass mass) := by
  rcases unmoved with ⟨step, found, same, -⟩
  exact ⟨step, found, same, computed⟩

/-- A prediction moves nothing to the new time. -/
theorem Unmoved.ends_predict {order halfOrder : Nat} {body : RigidStructure shape α} {seat : Seat}
    {objectName : String} {window : StepWindow α} {part : Nat} (unmoved : Unmoved order body)
    (serial : seat.size = 1) :
    (predict seat objectName halfOrder window part).Ends body (fun _ after => Unmoved order after)
      fun _ => True := by
  rcases unmoved with ⟨step, found, same, weighed⟩
  apply (ends_predict_frame serial).imp _ fun _ _ => trivial
  rintro _ _ ⟨step', halfPositions, halfMass, found', -, -, rfl⟩
  rw [found, Option.some.injEq] at found'
  subst found'
  exact ⟨_, rfl, same, weighed⟩

section

variable {settings : Settings α} {count : Nat}

/--
There is a prediction, or one of the structures has no fields of a step, or no structure has been
moved.
-/
inductive Awaits (settings : Settings α) (count : Nat) (c : Coordinator shape α) : Prop where
  | predicted (predicted : c.hasPrediction = true)
  | gap {part : Nat} (inside : part < count)
      (standing : c.Standing settings count (Idle part fun _ => True))
  | unmoved
      (standing : c.Standing settings count fun _ body => Unmoved settings.quadratureOrder body)

/-- Outside of a step there is a gap, unless there are no structures at all. -/
theorem awaits_of_closed (standing : c.Standing settings count fun _ body => body.step = none) :
    c.Awaits settings count := by
  cases count with
  | zero =>
      apply Awaits.unmoved
      refine { standing with each := ?_ }
      intro part body found
      have empty := List.eq_nil_of_length_eq_zero standing.length_eq
      rw [empty] at found
      cases found
  | succ count =>
      exact .gap (Nat.succ_pos count) (standing.imp fun _ _ closed _ => ⟨closed, trivial⟩)

/-- Opening a step moves nothing. -/
theorem awaits_of_opens {fits : Nat → RigidStructure shape α → Prop} {current new : α}
    (standing : c.Standing settings count fits)
    (weighs : ∀ part body mass, fits part body →
      (body.massAt body.positions settings.quadratureOrder).alone = .ok mass →
        fits part (body.withMass mass))
    (opens : Call.Succeeds (.preprocess current new) flow (c, state)) :
    (serveAlone flow (c, state) (.preprocess current new)).1.Awaits settings count := by
  apply Awaits.unmoved
  apply (standing.opened_of_opens weighs opens).1.imp
  rintro part _ ⟨_, ⟨body, mass, -, computed, rfl⟩, rfl⟩
  exact ⟨_, rfl, rfl, computed⟩

/-- Closing a step leaves it, or there is a gap, unless it is refused. -/
theorem ends_postprocess_awaits (standing : c.Standing settings count fun _ _ => True) :
    (postprocess : Work shape α Unit).Ends c (fun _ after => after.Awaits settings count)
      fun after => after = c ∨ after.Awaits settings count := by
  have commits (objectName : String) (forces : Option (List (NodalField α))) (part : Nat)
      (body : RigidStructure shape α) (_ : True) :
      (commit objectName forces part).Ends body (fun _ after => after.step = none)
        fun after => after.step = none := by
    cases opened : body.step with
    | none =>
        apply (ends_commit_closed opened).imp
        · exact fun _ _ impossible => impossible.elim
        · rintro _ rfl
          exact opened
    | some step =>
        apply (ends_commit_opened opened).imp
        · rintro _ _ ⟨constraintForce, rfl⟩
          rfl
        · rintro _ rfl
          rfl
  apply (standing.ends_postprocess commits).imp
  · exact fun _ _ closed => awaits_of_closed closed
  · rintro after (same | ⟨left, part, body, found, closed⟩)
    · exact Or.inl same
    · have inside : part < count := left.length_eq ▸ (List.getElem?_eq_some_iff.mp found).1
      exact Or.inr (.gap inside (left.idle_of_getElem? found closed trivial))

omit [Scalar α] in
/-- Positions are only updated in a step that is predicted, or by its prediction. -/
theorem predicted_of_advance {protocol : StepProtocol α} {rule : AdvanceRule}
    {outcome : StepOutcome α (StepWindow α)} (accepted : protocol.advance rule = .ok outcome) :
    outcome.protocol.predicted = true := by
  rcases StepProtocol.advance_eq_ok_iff.mp accepted with ⟨next, window, allowed, -, licensed, rfl⟩
  cases rule with
  | forwardEuler =>
      exact Bool.or_true _
  | midpoint =>
      simpa using licensed
  | trapezoidal =>
      exact absurd allowed Phase.after_trapezoidal_ne_ok

/-- An update of the positions leads to a prediction, needs one, or is refused. -/
theorem ends_advance_awaits (standing : c.Standing settings count fun _ _ => True)
    {rule : AdvanceRule} {current new : α} :
    (advance rule current new : Work shape α Unit).Ends c
      (fun _ after => after.Awaits settings count)
      fun after => after = c ∨ after.Awaits settings count := by
  cases checked : c.checkTimes rule current new with
  | error violation =>
      rw [advance]
      simp only [ends_bind, ends_get, ends_checking, checked, true_or]
  | ok _ =>
      cases accepted : c.protocol.advance rule with
      | error violation =>
          rw [advance]
          simp only [ends_bind, ends_get, ends_checking, ends_attempting, ends_committing, checked,
            accepted, true_or]
      | ok outcome =>
          have predicted {after : Coordinator shape α} (same : after.protocol = outcome.protocol) :
              after.Awaits settings count := by
            apply Awaits.predicted
            rw [hasPrediction, same]
            exact predicted_of_advance accepted
          have moves (part : Nat) (body : RigidStructure shape α) (_ : True) :
              (advancing c rule outcome.value part).Ends body (fun _ _ => True) fun _ => True :=
            ends_of_forall fun _ => trivial
          apply (standing.ends_advance_accepted checked accepted moves).imp
          · exact fun _ _ moved => predicted moved.2
          · exact fun _ stopped => Or.inr (predicted stopped.1)

/-- Calls that leave a step open and advance nothing keep its prediction. -/
theorem serve_hasPrediction (predicted : c.hasPrediction = true) (sound : c.Sound)
    (standing : c.Standing settings count fun _ _ => True)
    (unopened : call.Opens → ¬ call.Succeeds flow (c, state)) (notClosing : call ≠ .postprocess)
    (notAdvancing : ∀ rule current new, call ≠ .advance rule current new) :
    (serveAlone flow (c, state) call).1.hasPrediction = true := by
  have inStep : c.protocol.phase.inStep = true := by
    rw [← Bool.not_eq_false]
    intro outside
    rw [hasPrediction, (sound.consistent.outside outside).2.2] at predicted
    cases predicted
  by_cases opening : call.Opens
  · cases call with
    | preprocess current new =>
        have refused : (Call.serve flow (.preprocess current new)).Ends (c, state)
            (fun _ _ => True) fun after => after.1.protocol = c.protocol := by
          rw [Call.serve, ends_first]
          exact (Standing.ends_preprocess (fun _ _ _ _ _ => trivial) standing).imp
            (fun _ _ _ => trivial) fun _ stopped => stopped.2.1 inStep
        rw [hasPrediction, serveAlone_of_stops (unopened opening) refused]
        exact predicted
    | _ =>
        exact opening.elim
  · rw [← predicted]
    apply serveAlone_of_ends fun after => after.1.hasPrediction = c.hasPrediction
    exact sound.ends_serve_hasPrediction flow state opening notClosing notAdvancing

/-- Calls that leave a step open and advance nothing move nothing. -/
theorem Standing.serve_unmoved
    (unmoved : c.Standing settings count fun _ body => Unmoved settings.quadratureOrder body)
    (unopened : call.Opens → ¬ call.Succeeds flow (c, state)) (notClosing : call ≠ .postprocess)
    (notAdvancing : ∀ rule current new, call ≠ .advance rule current new) :
    (serveAlone flow (c, state) call).1.Standing settings count fun _ body =>
      Unmoved settings.quadratureOrder body := by
  have weighs (part : Nat) (body : RigidStructure shape α) (mass : MassProperties α)
      (fit : Unmoved settings.quadratureOrder body)
      (computed : (body.massAt body.positions settings.quadratureOrder).alone = .ok mass) :
      Unmoved settings.quadratureOrder (body.withMass mass) :=
    fit.withMass computed
  by_cases opening : call.Opens
  · cases call with
    | preprocess current new =>
        have refused : (Call.serve flow (.preprocess current new)).Ends (c, state)
            (fun _ _ => True) fun after => after.1.Standing settings count
              fun _ body => Unmoved settings.quadratureOrder body := by
          rw [Call.serve, ends_first]
          exact (Standing.ends_preprocess weighs unmoved).imp (fun _ _ _ => trivial)
            fun _ stopped => stopped.1
        exact serveAlone_of_stops (unopened opening) refused
    | _ =>
        exact opening.elim
  · have served := unmoved.ends_serve_between_of ignoresExchange_unmoved.ignoresSolver weighs
      (fun rule current new same => absurd same (notAdvancing rule current new)) flow state
      (fun time => unmoved.ends_interpolate ignoresExchange_unmoved)
      (by rintro current new rfl; exact opening trivial) notClosing
    apply serveAlone_of_ends fun after => after.1.Standing settings count _
    apply served.imp
    · exact fun _ after kept => (kept fun _ _ _ _ fit => fit).1
    · exact fun _ kept => kept.1

/-- Every call leaves a coordinator that awaits a prediction, or has one. -/
theorem Awaits.serve (awaits : c.Awaits settings count)
    (standing : c.Standing settings count fun _ _ => True) (sound : c.Sound) :
    (serveAlone flow (c, state) call).1.Awaits settings count := by
  by_cases opens : call.Opens ∧ call.Succeeds flow (c, state)
  · rcases opens with ⟨opening, succeeds⟩
    cases call with
    | preprocess current new =>
        exact awaits_of_opens standing (fun _ _ _ _ _ => trivial) succeeds
    | _ =>
        exact opening.elim
  have unopened (opening : call.Opens) : ¬ call.Succeeds flow (c, state) :=
    fun succeeds => opens ⟨opening, succeeds⟩
  by_cases closing : call = .postprocess
  · subst closing
    apply serveAlone_of_ends fun after => after.1.Awaits settings count
    rw [Call.serve, ends_first]
    apply (ends_postprocess_awaits standing).imp
    · exact fun _ _ left => left
    · rintro _ (rfl | left)
      · exact awaits
      · exact left
  by_cases advancing : ∃ rule current new, call = .advance rule current new
  · rcases advancing with ⟨rule, current, new, rfl⟩
    apply serveAlone_of_ends fun after => after.1.Awaits settings count
    rw [Call.serve, ends_first]
    apply (ends_advance_awaits standing).imp
    · exact fun _ _ left => left
    · rintro _ (rfl | left)
      · exact awaits
      · exact left
  have notAdvancing (rule : AdvanceRule) (current new : α) : call ≠ .advance rule current new :=
    fun same => advancing ⟨rule, current, new, same⟩
  -- All other calls keep whichever of the three it was.
  cases awaits with
  | gap inside idle =>
      exact .gap inside (idle.serve_idle inside (fun _ _ _ => trivial) (fun _ _ _ => trivial)
        unopened fun _ _ _ _ _ => trivial)
  | predicted predicted =>
      exact .predicted (serve_hasPrediction predicted sound standing unopened closing notAdvancing)
  | unmoved unmoved =>
      exact .unmoved (unmoved.serve_unmoved unopened closing notAdvancing)

end

/-! ## Structures without ghosts -/

/-- The rank has no copies of entries of other ranks. -/
def Ghostless (body : RigidStructure shape α) : Prop :=
  body.layout.ghosts = #[]

omit [Scalar α] in
theorem ignoresExchange_ghostless :
    IgnoresExchange fun _ (body : RigidStructure shape α) => Ghostless body where
  step := fun _ _ _ _ _ _ _ ghostless => ghostless
  flow := fun _ _ _ ghostless => ghostless

theorem lasting_ghostless : Lasting fun _ (body : RigidStructure shape α) => Ghostless body where
  solver := ignoresExchange_ghostless.ignoresSolver
  halfPositions := fun _ _ _ _ _ _ ghostless => ghostless
  newPositions := fun _ _ _ _ _ _ ghostless => ghostless
  mass := fun _ _ _ _ ghostless => ghostless
  velocity := fun _ _ _ ghostless => ghostless
  constraintForce := fun _ _ _ ghostless => ghostless
  opened := fun _ _ _ ghostless => ghostless
  committed := fun _ _ _ _ ghostless => ghostless

/-- On the only rank there is nothing to copy. -/
theorem ghostless_of_setUp {description : StructureDescription shape α} {seat : Seat}
    {body : RigidStructure shape α} (serial : seat.size = 1)
    (created : setUp description seat = .ok body) : Ghostless body := by
  simp only [setUp, bind_eq_ok_iff, pure_eq_ok_iff] at created
  rcases created with ⟨layout, laidOut, positions, -, rfl⟩
  have none : (Partition.ofMesh description.mesh seat).ghosts = [] := by
    rw [List.eq_nil_iff_forall_not_mem]
    intro node ghost
    rcases Partition.of_mem_ghosts ghost with ⟨inside, foreign⟩
    exact foreign (Seat.contains_block_of_single serial inside)
  cases made : (Partition.ofMesh description.mesh seat).layout shape.dim.size with
  | error fault =>
      rw [made] at laidOut
      cases laidOut
  | ok found =>
      rw [made] at laidOut
      cases laidOut
      rw [Ghostless, (Partition.laidOut_of_layout made).ghosts, none, List.flatMap_nil]

theorem Standing.serve_ghostless {settings : Settings α} {count : Nat}
    (standing : c.Standing settings count fun _ body => Ghostless body) :
    (serveAlone flow (c, state) call).1.Standing settings count fun _ body => Ghostless body :=
  standing.serve_lasting lasting_ghostless
    (samplingKeeps_of_ignoresExchange ignoresExchange_ghostless) state call

/-! ## Whatever has been called before -/

section

variable {settings : Settings α} {descriptions : List (StructureDescription shape α)} {seat : Seat}

theorem Attainable.ghostless (serial : seat.size = 1)
    (attained : Attainable settings descriptions seat c) :
    c.Standing settings descriptions.length fun _ body => Ghostless body := by
  induction attained with
  | registered created =>
      apply (standing_of_register serial created).1.imp
      rintro part body ⟨description, -, made⟩
      exact ghostless_of_setUp serial made
  | called earlier flow state call ih =>
      exact ih.serve_ghostless

theorem Attainable.awaits (serial : seat.size = 1)
    (attained : Attainable settings descriptions seat c) :
    c.Awaits settings descriptions.length := by
  induction attained with
  | registered created =>
      apply awaits_of_closed
      apply (standing_of_register serial created).1.imp
      rintro part body ⟨description, -, made⟩
      exact (fields_of_setUp made).2.2.2.2
  | called earlier flow state call ih =>
      exact ih.serve ((earlier.ghostless serial).imp fun _ _ _ => trivial) (earlier.sound serial)

/-- Without fields of a step nothing can be predicted. -/
theorem ends_predict_closed {body : RigidStructure shape α} {objectName : String} {order part : Nat}
    {window : StepWindow α} (closed : body.step = none) :
    (predict seat objectName order window part).Ends body (fun _ _ => False) fun _ => True := by
  rw [predict]
  simp only [ends_bind, ends_get, ends_stepFields, closed]

omit [Scalar α] in
/-- A prediction that succeeds is the first one of its step. -/
theorem Sound.unpredicted_of_accepted (sound : c.Sound) {outcome : StepOutcome α (StepWindow α)}
    (accepted : c.protocol.advance .forwardEuler = .ok outcome) : c.hasPrediction = false := by
  rcases StepProtocol.advance_eq_ok_iff.mp accepted with ⟨next, window, allowed, -⟩
  have early := (Phase.after_forwardEuler_eq_ok_iff.mp allowed).1
  refine (sound.consistent.predicting ?_).1
  revert early
  cases c.protocol.phase <;> simp [Phase.predicting]

/--
Whatever has been called before, a prediction that succeeds finds structures that have not been
moved, and leaves them so.
-/
theorem Attainable.unmoved_of_predicts (serial : seat.size = 1)
    (attained : Attainable settings descriptions seat c) {current new : α}
    (predicts : Call.Succeeds (.advance .forwardEuler current new) flow (c, state)) :
    (serveAlone flow (c, state) (.advance .forwardEuler current new)).1.Standing settings
      descriptions.length fun _ body => Unmoved settings.quadratureOrder body := by
  cases attained.awaits serial with
  | predicted predicted =>
      have moves (window : StepWindow α) (_ : c.protocol.window = some window) (part : Nat)
          (body : RigidStructure shape α) (_ : Ghostless body) :
          (advancing c .forwardEuler window part).Ends body (fun _ _ => True) fun _ => True :=
        ends_of_forall fun _ => trivial
      rcases ((attained.ghostless serial).advanced_of_succeeds moves predicts).2 with
        ⟨outcome, accepted, -⟩
      rw [(attained.sound serial).unpredicted_of_accepted accepted] at predicted
      cases predicted
  | @gap missing inside idle =>
      have moves (window : StepWindow α) (_ : c.protocol.window = some window) (part : Nat)
          (body : RigidStructure shape α) (fit : Idle missing (fun _ => True) part body) :
          (advancing c .forwardEuler window part).Ends body (fun _ _ => part ≠ missing)
            fun _ => True := by
        apply (ends_of_imp fun same => ends_predict_closed (fit same).1).imp
        · exact fun _ _ impossible => impossible
        · exact fun _ _ => trivial
      rcases (idle.advanced_of_succeeds moves predicts).1.exists_structure inside with
        ⟨_, -, other⟩
      exact absurd rfl other
  | unmoved unmoved =>
      have moves (window : StepWindow α) (_ : c.protocol.window = some window) (part : Nat)
          (body : RigidStructure shape α) (fit : Unmoved settings.quadratureOrder body) :
          (advancing c .forwardEuler window part).Ends body
            (fun _ after => Unmoved settings.quadratureOrder after) fun _ => True :=
        fit.ends_predict unmoved.serial
      exact (unmoved.advanced_of_succeeds moves predicts).1

end

end ImmersedBody.Coordinator
