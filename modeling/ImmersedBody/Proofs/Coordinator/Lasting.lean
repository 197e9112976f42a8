import ImmersedBody.Proofs.Coordinator.OpenSteps

/-!
# Properties that last

What an update of the positions does to a structure is said by `ends_predict_frame` and
`ends_update_frame`, whether it succeeds or stops.

A property of structures is `Lasting` if nothing that is done to a structure takes it
away, from its registration on.  `Standing.run_lasting` says that it is there after
every run.  That a structure moves as it was described is such a property.
-/

namespace ImmersedBody

open ImmersedBody.Action

variable {α σ : Type} {shape : Shape}

/--
A property of numbered structures that is not lost by anything that is done to a
structure within a step, apart from the sampling of the flow.
-/
structure RigidStructure.LastsInStep (fits : Nat → RigidStructure shape α → Prop) : Prop where
  solver : IgnoresSolver fits
  halfPositions : ∀ part (body : RigidStructure shape α) step halfPositions,
    body.step = some step → halfPositions.layout = step.halfPositions.layout → fits part body →
      fits part { body with step := some { step with halfPositions } }
  newPositions : ∀ part (body : RigidStructure shape α) step newPositions,
    body.step = some step → newPositions.layout = step.newPositions.layout → fits part body →
      fits part { body with step := some { step with newPositions } }
  mass : ∀ part (body : RigidStructure shape α) currentMass halfMass, fits part body →
    fits part { body with currentMass, halfMass }
  velocity : ∀ part (body : RigidStructure shape α) velocity, fits part body →
    fits part { body with velocity }

/-- A property that is not lost by the opening or the closing of a step either. -/
structure RigidStructure.Lasting [Scalar α] (fits : Nat → RigidStructure shape α → Prop) : Prop
    extends LastsInStep fits where
  constraintForce : ∀ part (body : RigidStructure shape α) constraintForce, fits part body →
    fits part { body with constraintForce }
  opened : ∀ part body window, fits part body → fits part (body.opened window)
  committed : ∀ part body step, body.step = some step → fits part body →
    fits part (body.committed step)

namespace Coordinator

open RigidStructure NodalField

variable [Scalar α] {body : RigidStructure shape α} {seat : Seat} {part : Nat}

/-! ## What is done to one structure -/

/--
A prediction changes the positions and the mass properties of the half time only, which belong
together afterwards.
-/
theorem ends_predict_frame (serial : seat.size = 1) {objectName : String} {order : Nat}
    {window : StepWindow α} :
    (predict seat objectName order window part).Ends body
      (fun _ after => ∃ step halfPositions halfMass, body.step = some step ∧
        halfPositions.layout = step.halfPositions.layout ∧
          (body.massAt halfPositions order).alone = .ok halfMass ∧
            after = { body with step := some { step with halfPositions }, halfMass })
      fun after => after = body ∨ ∃ step halfPositions, body.step = some step ∧
        halfPositions.layout = step.halfPositions.layout ∧
          after = { body with step := some { step with halfPositions } } := by
  rw [predict]
  simp only [ends_bind, ends_get, ends_stepFields, ends_part]
  cases opened : body.step with
  | none =>
      exact Or.inl trivial
  | some step =>
      simp only
      cases displaced : NodalField.displace shape.dim _ body.positions step.halfPositions with
      | error stop moved =>
          exact Or.inr ⟨step, moved, rfl, layout_of_displace (Or.inr ⟨stop, displaced⟩), rfl⟩
      | ok value moved =>
          have same := layout_of_displace (Or.inl displaced)
          simp only [ends_collective, alone_close serial, ends_set, ends_attempt]
          split
          next halfMass computed =>
            exact ⟨step, { moved with synchronized := true }, halfMass, rfl, same, computed, rfl⟩
          next =>
            exact Or.inr ⟨step, { moved with synchronized := true }, rfl, same, rfl⟩

/-- A midpoint step changes the positions of the new time only. -/
theorem ends_update_frame (serial : seat.size = 1) {window : StepWindow α} :
    (update seat window part).Ends body
      (fun _ after => ∃ step newPositions, body.step = some step ∧
        newPositions.layout = step.newPositions.layout ∧
          after = { body with step := some { step with newPositions } })
      fun after => after = body ∨ ∃ step newPositions, body.step = some step ∧
        newPositions.layout = step.newPositions.layout ∧
          after = { body with step := some { step with newPositions } } := by
  rw [update]
  simp only [ends_bind, ends_get, ends_stepFields, ends_part]
  cases opened : body.step with
  | none =>
      exact Or.inl trivial
  | some step =>
      simp only
      cases displaced : NodalField.displace shape.dim _ body.positions step.newPositions with
      | error stop moved =>
          exact Or.inr ⟨step, moved, rfl, layout_of_displace (Or.inr ⟨stop, displaced⟩), rfl⟩
      | ok value moved =>
          have same := layout_of_displace (Or.inl displaced)
          simp only [ends_collective, alone_close serial, ends_set]
          exact ⟨step, { moved with synchronized := true }, rfl, same, rfl⟩

/-- An update of the positions changes the fields of the step and the mass of the half time. -/
theorem ends_advancing_frame {c : Coordinator shape α} (serial : c.seat.size = 1)
    (rule : AdvanceRule) (window : StepWindow α) :
    (advancing c rule window part).Ends body
      (fun _ after => ∃ step halfMass, after = { body with step, halfMass })
      fun after => ∃ step halfMass, after = { body with step, halfMass } := by
  cases rule with
  | forwardEuler =>
      apply (ends_predict_frame serial).imp
      · rintro _ _ ⟨step, halfPositions, halfMass, -, -, -, rfl⟩
        exact ⟨_, halfMass, rfl⟩
      · rintro _ (rfl | ⟨step, halfPositions, -, -, rfl⟩)
        · exact ⟨_, _, rfl⟩
        · exact ⟨_, body.halfMass, rfl⟩
  | midpoint =>
      apply (ends_update_frame serial).imp
      · rintro _ _ ⟨step, newPositions, -, -, rfl⟩
        exact ⟨_, body.halfMass, rfl⟩
      · rintro _ (rfl | ⟨step, newPositions, -, -, rfl⟩)
        · exact ⟨_, _, rfl⟩
        · exact ⟨_, body.halfMass, rfl⟩
  | trapezoidal =>
      exact ⟨_, _, rfl⟩

variable {fits : Nat → RigidStructure shape α → Prop}

/-- An update of the positions does not take away what lasts. -/
theorem ends_advancing_lasting (lasting : LastsInStep fits) {c : Coordinator shape α}
    (serial : c.seat.size = 1) (rule : AdvanceRule) (window : StepWindow α) (fit : fits part body) :
    (advancing c rule window part).Ends body (fun _ after => fits part after)
      fun after => fits part after := by
  cases rule with
  | forwardEuler =>
      apply (ends_predict_frame serial).imp
      · rintro _ _ ⟨step, halfPositions, halfMass, opened, same, -, rfl⟩
        have moved := lasting.halfPositions part body step halfPositions opened same fit
        exact lasting.mass part _ body.currentMass halfMass moved
      · rintro _ (rfl | ⟨step, halfPositions, opened, same, rfl⟩)
        · exact fit
        · exact lasting.halfPositions part body step halfPositions opened same fit
  | midpoint =>
      apply (ends_update_frame serial).imp
      · rintro _ _ ⟨step, newPositions, opened, same, rfl⟩
        exact lasting.newPositions part body step newPositions opened same fit
      · rintro _ (rfl | ⟨step, newPositions, opened, same, rfl⟩)
        · exact fit
        · exact lasting.newPositions part body step newPositions opened same fit
  | trapezoidal =>
      exact fit

section

variable {settings : Settings α} {count : Nat} {flow : FlowTransfer α σ}

/--
As long as a step stays open, what lasts in a step is there, if the call does not sample the flow.
-/
theorem Standing.serve_lastsInStep {c : Coordinator shape α} {state : σ} {call : Call shape α}
    (standing : c.Standing settings count fits) (lasts : LastsInStep fits)
    (inStep : c.protocol.phase.inStep = true)
    (stays : (serveAlone flow (c, state) call).1.protocol.phase.inStep = true)
    (unsampled : ∀ time, call ≠ .interpolate time) :
    (serveAlone flow (c, state) call).1.Standing settings count fits := by
  apply standing.serve_open _ inStep lasts.solver stays
  · exact fun time sampled => absurd sampled (unsampled time)
  · rintro rule current new rfl
    have moves (window : StepWindow α) (_ : c.protocol.window = some window) (part : Nat)
        (body : RigidStructure shape α) (fit : fits part body) :
        (advancing c rule window part).Ends body (fun _ after => fits part after)
          fun after => fits part after :=
      ends_advancing_lasting lasts standing.serial rule window fit
    apply serveAlone_of_ends fun after => after.1.Standing settings count fits
    rw [Call.serve, ends_first]
    exact (standing.ends_advance moves fun _ _ fit => fit).imp (fun _ _ kept => kept.1)
      fun _ kept => kept.1
  · rintro number dofs rfl
    have sets : (Call.updateVelocity number dofs : Call shape α).Sets := trivial
    apply serveAlone_of_ends fun after => after.1.Standing settings count fits
    apply (standing.ends_setting sets flow state).imp
    · intro _ _ kept
      exact (kept fun part body velocity _ fit => lasts.velocity part body velocity fit).1
    · exact fun _ kept => kept.1
  · exact fun _ part body mass fit _ => lasts.mass part body mass mass fit

/-- As long as a step stays open and the flow is not sampled, what lasts in a step is there. -/
theorem Standing.run_lastsInStep (lasts : LastsInStep fits) {calls : List (Call shape α)} :
    ∀ {start : Coordinator shape α × σ}, start.1.Standing settings count fits →
      StaysOpen flow start calls → (∀ time, .interpolate time ∉ calls) →
        (runAlone flow start calls).1.Standing settings count fits ∧
          start.1.protocol.SameStep (runAlone flow start calls).1.protocol := by
  induction calls with
  | nil =>
      exact fun standing _ _ => ⟨standing, rfl, rfl, rfl⟩
  | cons call calls ih =>
      intro start standing stays unsampled
      have elsewhere (time : α) : call ≠ .interpolate time := by
        rintro rfl
        exact unsampled time List.mem_cons_self
      have served : (serveAlone flow start call).1.Standing settings count fits :=
        standing.serve_lastsInStep lasts (stays 0) stays.first elsewhere
      have same : start.1.protocol.SameStep (serveAlone flow start call).1.protocol :=
        sameStep_serve_open standing.serial (stays 0) stays.first
      rcases ih served stays.tail fun time later => unsampled time (List.mem_cons_of_mem _ later) with
        ⟨kept, later⟩
      exact ⟨kept, same.trans later⟩

end

/-- Closing a step does not take away what lasts. -/
theorem ends_commit_lasting (lasting : Lasting fits) {objectName : String}
    {forces : Option (List (NodalField α))} (fit : fits part body) :
    (commit objectName forces part).Ends body (fun _ after => fits part after)
      fun after => fits part after := by
  cases opened : body.step with
  | none =>
      apply (ends_commit_closed opened).imp
      · exact fun _ _ impossible => impossible.elim
      · rintro _ rfl
        exact fit
  | some step =>
      have committed := lasting.committed part body step opened fit
      apply (ends_commit_opened opened).imp
      · rintro _ _ ⟨constraintForce, rfl⟩
        have forced := lasting.constraintForce part _ constraintForce committed
        exact lasting.velocity part _ _ forced
      · rintro _ rfl
        exact committed

/-! ## Calls and runs -/

section

variable {settings : Settings α} {count : Nat} {flow : FlowTransfer α σ}

/-- Sampling a flow leaves every structure of a coordinator with its property. -/
def SamplingKeeps (settings : Settings α) (count : Nat) (fits : Nat → RigidStructure shape α → Prop)
    (flow : FlowTransfer α σ) : Prop :=
  ∀ (c : Coordinator shape α) state time, c.Standing settings count fits →
    (interpolate flow time).Ends (c, state)
      (fun _ after => after.1.Standing settings count fits ∧ c.protocol.SameStep after.1.protocol)
      fun after => after.1.Standing settings count fits ∧ c.protocol.SameStep after.1.protocol

theorem samplingKeeps_of_ignoresExchange (ignores : IgnoresExchange fits) :
    SamplingKeeps settings count fits flow :=
  fun _ _ _ standing => standing.ends_interpolate ignores

/-- No call takes away what lasts, if sampling the flow does not. -/
theorem Standing.serve_lasting {c : Coordinator shape α} (standing : c.Standing settings count fits)
    (lasting : Lasting fits) (samples : SamplingKeeps settings count fits flow) (state : σ)
    (call : Call shape α) :
    (serveAlone flow (c, state) call).1.Standing settings count fits := by
  have weighs (part : Nat) (body : RigidStructure shape α) (mass : MassProperties α)
      (fit : fits part body)
      (_ : (body.massAt body.positions settings.quadratureOrder).alone = .ok mass) :
      fits part (body.withMass mass) :=
    lasting.mass part body mass mass fit
  by_cases opening : ∃ current new, call = .preprocess current new
  · rcases opening with ⟨current, new, rfl⟩
    apply serveAlone_of_ends fun after => after.1.Standing settings count fits
    rw [Call.serve, ends_first]
    apply (ends_preprocess weighs standing).imp
    · rintro _ after ⟨opened, -, -⟩
      apply opened.imp
      rintro part _ ⟨_, ⟨body, mass, fit, computed, rfl⟩, rfl⟩
      exact lasting.opened part _ _ (weighs part body mass fit computed)
    · exact fun _ stopped => stopped.1
  by_cases closing : call = .postprocess
  · subst closing
    apply serveAlone_of_ends fun after => after.1.Standing settings count fits
    rw [Call.serve, ends_first]
    apply (standing.ends_postprocess fun _ _ _ _ fit => ends_commit_lasting lasting fit).imp
    · exact fun _ _ committed => committed
    · rintro after (rfl | ⟨left, -⟩)
      · exact standing
      · exact left.imp fun _ _ fit => fit.elim id (Or.elim · id id)
  · have served := standing.ends_serve_between_of lasting.solver weighs
      (fun rule _ _ _ window _ _ _ fit => ends_advancing_lasting lasting.toLastsInStep
        standing.serial rule window fit)
      flow state (fun time => samples c state time standing)
      (fun current new same => opening ⟨current, new, same⟩) closing
    apply serveAlone_of_ends fun after => after.1.Standing settings count fits
    apply served.imp
    · intro _ after kept
      exact (kept fun part body velocity _ fit => lasting.velocity part body velocity fit).1
    · exact fun _ kept => kept.1

/-- What lasts is there after every run. -/
theorem Standing.run_lasting (lasting : Lasting fits)
    (samples : SamplingKeeps settings count fits flow) {calls : List (Call shape α)} :
    ∀ {start : Coordinator shape α × σ}, start.1.Standing settings count fits →
      (runAlone flow start calls).1.Standing settings count fits := by
  induction calls with
  | nil =>
      exact fun standing => standing
  | cons call calls ih =>
      intro start standing
      exact ih (standing.serve_lasting lasting samples start.2 call)

end

/-! ## Motions -/

section

variable {settings : Settings α} {descriptions : List (StructureDescription shape α)} {seat : Seat}

/-- The structure moves as it was described. -/
def HasMotion (descriptions : List (StructureDescription shape α)) (part : Nat)
    (body : RigidStructure shape α) : Prop :=
  descriptions[part]?.map (·.motion) = some body.motion

omit [Scalar α] in
theorem ignoresExchange_hasMotion : IgnoresExchange (HasMotion descriptions) where
  step := fun _ _ _ _ _ _ _ motion => motion
  flow := fun _ _ _ motion => motion

theorem lasting_hasMotion : Lasting (HasMotion descriptions) where
  solver := ignoresExchange_hasMotion.ignoresSolver
  halfPositions := fun _ _ _ _ _ _ motion => motion
  newPositions := fun _ _ _ _ _ _ motion => motion
  mass := fun _ _ _ _ motion => motion
  velocity := fun _ _ _ motion => motion
  constraintForce := fun _ _ _ motion => motion
  opened := fun _ _ _ motion => motion
  committed := fun _ _ _ _ motion => motion

/-- No run changes what kind of motion the structures have. -/
theorem run_hasMotion (serial : seat.size = 1) {c : Coordinator shape α}
    (registered : (register settings descriptions seat).alone = .ok c) {flow : FlowTransfer α σ}
    {state : σ} {calls : List (Call shape α)} :
    (runAlone flow (c, state) calls).1.Standing settings descriptions.length
      (HasMotion descriptions) := by
  have start : c.Standing settings descriptions.length (HasMotion descriptions) := by
    apply (standing_of_register serial registered).1.imp
    rintro part body ⟨description, found, made⟩
    rw [HasMotion, found, Option.map_some, (fields_of_setUp made).2.2.1]
  exact Standing.run_lasting lasting_hasMotion
    (samplingKeeps_of_ignoresExchange ignoresExchange_hasMotion) start

end

end Coordinator

end ImmersedBody
