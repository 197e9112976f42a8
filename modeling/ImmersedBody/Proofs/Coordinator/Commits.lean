import ImmersedBody.Proofs.Coordinator.Currents
import ImmersedBody.Proofs.Coordinator.HandOff

/-!
# The current time during a step and after it

From the opening of a step to its closing, what the structures have at the
current time is frozen, whatever is called.  The closing replaces it as a whole:
either it is refused and changes nothing, or every structure takes over the last
fields of the step.

The main theorem is `frozen_until_committed`.
-/

namespace ImmersedBody

open ImmersedBody.Action

variable {α σ : Type} {shape : Shape}

/-- What a structure has at the current time, apart from the velocity of the flow. -/
structure CurrentState (α : Type) where
  positions : NodalField α
  constraintForce : NodalField α
  constrainedVelocity : NodalField α
  velocity : RigidVelocity α
  mass : MassProperties α

namespace RigidStructure

/-- What a structure has at the current time, apart from the velocity of the flow. -/
def currentState (body : RigidStructure shape α) : CurrentState α where
  positions := body.positions
  constraintForce := body.constraintForce
  constrainedVelocity := body.constrainedVelocity
  velocity := body.velocity.current
  mass := body.currentMass

/-- What a step has to leave alone, and whether the fields of a step are there. -/
def standing (body : RigidStructure shape α) : CurrentState α × Bool :=
  (body.currentState, body.step.isSome)

theorem showsCurrent_standing :
    ShowsCurrent (standing : RigidStructure shape α → CurrentState α × Bool) where
  step := by
    intro body fields fields' opened
    rw [standing, standing, opened]
    rfl
  halfMass := fun _ _ => rfl
  velocity := fun _ _ _ => rfl

theorem hidesFlow_standing :
    HidesFlow (standing : RigidStructure shape α → CurrentState α × Bool) :=
  fun _ _ => rfl

theorem showsCurrent_lagrangianVelocity :
    ShowsCurrent (lagrangianVelocity : RigidStructure shape α → NodalField α) where
  step := fun _ _ _ _ => rfl
  halfMass := fun _ _ => rfl
  velocity := fun _ _ _ => rfl

/-- A structure after a step was committed with a constraint force. -/
structure CommittedWith (force : NodalField α) (body after : RigidStructure shape α) : Prop where
  fields : ∃ step, body.step = some step ∧ after.positions = step.newPositions ∧
    after.lagrangianVelocity = step.newVelocity ∧
    after.constrainedVelocity = step.constrainedVelocity
  constraintForce : after.constraintForce = force
  velocity : after.velocity.current = body.velocity.new

end RigidStructure

namespace Coordinator

open RigidStructure

/-- A coordinator after a step was committed, with these constraint forces of the new time. -/
def CommittedWith (forces : CompositeField α) (before after : Coordinator shape α) : Prop :=
  after.structures.length = before.structures.length ∧
    ∀ (part : Nat) (body : RigidStructure shape α), before.structures[part]? = some body →
      ∃ force body', forces.parts[part]? = some force ∧
        after.structures[part]? = some body' ∧ body.CommittedWith force body'

/-- Changes of a composite field that keep the layouts of its parts. -/
def KeepsLayouts (change : CompositeField α → CompositeField α) : Prop :=
  ∀ composite, (change composite).parts.map (·.layout) = composite.parts.map (·.layout)

/-- The composite constraint force of the new time as calls leave it. -/
def leftForces [Scalar α] (tolerance : α) (window : StepWindow α) (forces : CompositeField α)
    (calls : List (Call shape α)) : CompositeField α :=
  calls.foldl (fun forces call => call.leftForces tolerance window forces) forces

/-! ## Closing a step -/

/-- A structure with fields of a step can be committed. -/
theorem ends_commit_with {body : RigidStructure shape α} {step : StepFields α}
    (opened : body.step = some step) {objectName : String} {forces : List (NodalField α)}
    {part : Nat} {force : NodalField α} (found : forces[part]? = some force)
    (fits : body.constraintForce.layout = force.layout) :
    (commit objectName (some forces) part).Ends body (fun _ after => body.CommittedWith force after)
      fun _ => False := by
  have copied : (body.committed step).constraintForce.copyFrom force = .ok force := by
    rw [NodalField.copyFrom, if_pos]
    exact beq_iff_eq.mpr fits
  rw [commit]
  simp only [ends_bind, ends_get, opened, ends_set, Option.bind_some, found, copied, ends_modify]
  exact ⟨⟨step, opened, rfl, rfl, rfl⟩, rfl, rfl⟩

/--
Closing a step commits all structures or changes nothing, if all of them have
fields of the step and the forces of the new time fit.
-/
theorem ends_postprocess_with {c : Coordinator shape α} {forces : CompositeField α}
    (allocated : c.newForces = some forces)
    (opened : ∀ body ∈ c.structures, body.step.isSome = true)
    (fits : forces.parts.map (·.layout) = c.structures.map (·.constraintForce.layout)) :
    (postprocess : Work shape α Unit).Ends c (fun _ after => c.CommittedWith forces after)
      fun after => after = c := by
  have commits (before : Coordinator shape α) (same : before.structures = c.structures)
      (objectName : String) :
      (forEachStructure (commit objectName (some forces.parts))).Ends before
        (fun _ after => c.CommittedWith forces after) fun after => after = c := by
    apply ends_forEachStructure
      (fun part (body after : RigidStructure shape α) =>
        ∃ force, forces.parts[part]? = some force ∧ body.CommittedWith force after)
      fun _ _ _ => False
    · intro part body member
      have found : c.structures[part]? = some body := by
        rw [← same]
        exact List.mk_mem_zipIdx_iff_getElem?.mp member
      rcases Option.isSome_iff_exists.mp (opened body (List.mem_of_getElem? found)) with
        ⟨step, fields⟩
      have layouts := congrArg (fun layouts => layouts[part]?) fits
      simp only [List.getElem?_map, found, Option.map_some, Option.map_eq_some_iff] at layouts
      rcases layouts with ⟨force, forced, layout⟩
      apply (ends_commit_with fields forced layout.symm).imp
      · exact fun _ _ committed => ⟨force, forced, committed⟩
      · exact fun _ impossible => impossible
    · intro structures finished
      rcases finished.getElem with ⟨length_eq, each⟩
      simp only [same] at length_eq each
      refine ⟨length_eq, ?_⟩
      intro part body found
      rcases List.getElem?_eq_some_iff.mp found with ⟨inside, rfl⟩
      rcases each part inside (length_eq ▸ inside) with ⟨force, forced, committed⟩
      rw [Nat.zero_add] at forced
      exact ⟨force, _, forced, List.getElem?_eq_getElem (length_eq ▸ inside), committed⟩
    · intro structures stopped
      rcases stopped.exists_stop with ⟨-, _, _, -, _, -, impossible⟩
      exact impossible.elim
  rw [postprocess]
  simp only [ends_bind, ends_get, ends_attempting, ends_committing]
  cases c.protocol.endStep with
  | error violation =>
      trivial
  | ok outcome =>
      simp only [ends_modify]
      cases c.currentForces <;>
        simp only [ends_bind, ends_get, ends_modify, ends_collective, alone_release, ends_map,
          allocated] <;>
        apply commits <;> rfl

/-! ## Steps that can be committed -/

/-- What a coordinator shows in a step that can be committed with these forces of the new time. -/
structure Committable (window : StepWindow α) (forces : CompositeField α)
    (shown : Overview α (CurrentState α × Bool)) : Prop where
  inStep : shown.inStep = true
  initialized : shown.initialized = true
  window_eq : shown.window = some window
  hasCurrentForces : shown.hasCurrentForces = true
  newForces : shown.newForces = some forces
  opened : ∀ body ∈ shown.bodies, body.2 = true
  fits : forces.parts.map (·.layout) = shown.bodies.map (·.1.constraintForce.layout)

variable {window : StepWindow α} {forces : CompositeField α} {c : Coordinator shape α}

theorem Committable.withForces {shown : Overview α (CurrentState α × Bool)}
    (committable : Committable window forces shown) {changed : CompositeField α}
    (same : changed.parts.map (·.layout) = forces.parts.map (·.layout)) :
    Committable window changed { shown with newForces := some changed } where
  inStep := committable.inStep
  initialized := committable.initialized
  window_eq := committable.window_eq
  hasCurrentForces := committable.hasCurrentForces
  newForces := rfl
  opened := committable.opened
  fits := same.trans committable.fits

/-- Closing a step that can be committed commits it or changes nothing. -/
theorem Committable.ends_postprocess
    (committable : Committable window forces (overview standing c)) :
    (postprocess : Work shape α Unit).Ends c (fun _ after => c.CommittedWith forces after)
      fun after => after = c := by
  apply ends_postprocess_with committable.newForces
  · intro body member
    exact committable.opened body.standing (List.mem_map_of_mem member)
  · rw [committable.fits, overview, List.map_map]
    rfl

/-- The structures of an opened step have fields of the step. -/
theorem committable_opened (c : Coordinator shape α) (inStep : c.protocol.phase.inStep = true)
    (initialized : c.initialized = true) (opened : c.protocol.window = some window)
    (currentForces : CompositeField α) :
    let structures := c.structures.map (·.opened window)
    let forces : CompositeField α := ⟨structures.map (·.constraintForce)⟩
    Committable window forces
      (overview standing
        { c with structures, currentForces := some currentForces, newForces := some forces }) where
  inStep := inStep
  initialized := initialized
  window_eq := opened
  hasCurrentForces := rfl
  newForces := rfl
  opened := by
    intro shown member
    simp only [overview, List.map_map, List.mem_map] at member
    rcases member with ⟨body, -, rfl⟩
    rfl
  fits := by
    simp only [overview, List.map_map]
    rfl

variable [Scalar α]

/-- Opening a step yields a step that can be committed. -/
theorem ends_preprocess_committable {current new : α} :
    (preprocess current new : Work shape α Unit).Ends c
      (fun _ after => Committable (.between current new)
        ⟨after.structures.map (·.constraintForce)⟩ (overview standing after))
      fun _ => True := by
  have masses : Fixes (fun c : Coordinator shape α => (c.protocol, c.initialized)) updateMass :=
    fixes_bind fixes_get fun _ => fixes_forEachStructure
      (show ReadsThrough (fun _ : RigidStructure shape α => ()) _ from fun _ _ _ => rfl)
      fun _ _ => ends_of_forall fun _ => rfl
  have prepares : (prepare : Work shape α Unit).Ends c (fun _ after => after.initialized = true)
      fun _ => True := by
    rw [prepare]
    simp only [ends_bind, ends_get, ends_ite]
    split
    next initialized =>
      exact initialized
    next =>
      simp only [ends_tell, ends_modify]
      exact ends_of_forall fun _ => trivial
  rw [preprocess]
  simp only [ends_bind, ends_get]
  apply prepares.imp _ fun _ stopped => stopped
  intro _ prepared initialized
  rw [ends_attempting, ends_committing]
  cases begun : prepared.protocol.beginStep current new with
  | error violation =>
      trivial
  | ok outcome =>
      have inStep : outcome.protocol.phase.inStep = true := (StepProtocol.of_beginStep begun).2.2.2
      have windows : outcome.value = .between current new ∧
          outcome.protocol.window = some outcome.value := by
        rcases StepProtocol.beginStep_eq_ok_iff.mp begun with ⟨next, -, rfl⟩
        exact ⟨rfl, rfl⟩
      rcases windows with ⟨between, opened⟩
      rw [← between]
      simp only
      split_ifs
      · rw [ends_bind]
        apply (masses _).imp _ fun _ _ => trivial
        intro _ computed same
        have protocol : computed.protocol = outcome.protocol := (Prod.mk.inj same).1
        have kept : computed.initialized = prepared.initialized := (Prod.mk.inj same).2
        rw [← protocol] at inStep opened
        simp only [ends_bind, ends_modify, ends_get, ends_collective, alone_assemble]
        exact committable_opened computed inStep (kept.trans initialized) opened _
      · simp only [ends_bind, ends_modify, ends_get, ends_collective, alone_assemble]
        exact committable_opened { prepared with protocol := outcome.protocol } inStep initialized
          opened _

/-! ## Calls between the opening and the closing -/

section

variable {flow : FlowTransfer α σ} {state : σ}

/-- A call that does not stop. -/
def Call.Succeeds (call : Call shape α) (flow : FlowTransfer α σ)
    (state : Coordinator shape α × σ) : Prop :=
  ((call.serve flow).alone state).1.isOk = true

/-- Whether a call succeeds can be found out by carrying it out. -/
instance (call : Call shape α) (flow : FlowTransfer α σ) (state : Coordinator shape α × σ) :
    Decidable (call.Succeeds flow state) :=
  inferInstanceAs (Decidable (_ = true))

/-- What is known of how a call ends is known of the state after it. -/
theorem serveAlone_of_ends {call : Call shape α} {state : Coordinator shape α × σ}
    (property : Coordinator shape α × σ → Prop)
    (ends : (call.serve flow).Ends state (fun _ after => property after) property) :
    property (serveAlone flow state call) := by
  rw [Ends] at ends
  rw [serveAlone]
  generalize (call.serve flow).alone state = result at *
  rcases result with ⟨_ | _, after⟩ <;> exact ends

/-- A call in a step that can be committed changes nothing that shows but the forces. -/
theorem overview_serveAlone (committable : Committable window forces (overview standing c))
    {call : Call shape α} (unclosed : call = .postprocess → ¬ call.Succeeds flow (c, state)) :
    overview standing (serveAlone flow (c, state) call).1 =
      { overview standing c with
        newForces := some (call.leftForces c.protocol.tolerance window forces) } := by
  by_cases closing : call = .postprocess
  · subst closing
    have refused := unclosed rfl
    have ends : (Call.serve flow .postprocess).Ends (c, state) (fun _ _ => True)
        fun after => after = (c, state) := by
      rw [Call.serve, ends_first]
      apply committable.ends_postprocess.imp fun _ _ _ => trivial
      exact fun after same => congrArg (·, state) same
    rw [Call.Succeeds] at refused
    rw [Ends] at ends
    rw [serveAlone]
    generalize (Call.serve flow .postprocess).alone (c, state) = result at *
    rcases result with ⟨_ | _, after⟩
    · rw [ends]
      show overview standing c = { overview standing c with newForces := some forces }
      rw [← committable.newForces]
    · exact absurd rfl refused
  · apply serveAlone_of_ends fun after => overview standing after.1 = _
    exact ends_serve_in_step showsCurrent_standing closing committable.inStep
      committable.initialized committable.window_eq committable.newForces
      (fun _ => hidesFlow_standing) flow state

/-- Calls keep a step that can be committed, unless they close it. -/
theorem overview_runAlone {calls : List (Call shape α)}
    (unclosed : ∀ i, calls[i]? = some .postprocess →
      ¬ Call.Succeeds .postprocess flow (runAlone flow (c, state) (calls.take i)))
    (keeps : ∀ time change, .changeForces time change ∈ calls → KeepsLayouts change)
    (committable : Committable window forces (overview standing c)) :
    Committable window (leftForces c.protocol.tolerance window forces calls)
        (overview standing (runAlone flow (c, state) calls).1) ∧
      overview standing (runAlone flow (c, state) calls).1 =
        { overview standing c with
          newForces := some (leftForces c.protocol.tolerance window forces calls) } := by
  induction calls generalizing c state forces with
  | nil =>
      refine ⟨committable, ?_⟩
      show overview standing c = { overview standing c with newForces := some forces }
      rw [← committable.newForces]
  | cons call calls ih =>
      have first : call = .postprocess → ¬ call.Succeeds flow (c, state) := by
        rintro rfl
        exact unclosed 0 rfl
      have served := overview_serveAlone committable first
      rcases after_eq : serveAlone flow (c, state) call with ⟨c', state'⟩
      rw [after_eq] at served
      have layouts : (call.leftForces c.protocol.tolerance window forces).parts.map (·.layout) =
          forces.parts.map (·.layout) := by
        cases call with
        | changeForces time change =>
            rw [Call.leftForces]
            split
            · exact keeps time change List.mem_cons_self forces
            · rfl
        | _ =>
            rfl
      have again := committable.withForces layouts
      rw [← served] at again
      have tolerance : c'.protocol.tolerance = c.protocol.tolerance :=
        congrArg Overview.tolerance served
      have run : runAlone flow (c, state) (call :: calls) = runAlone flow (c', state') calls := by
        rw [runAlone, List.foldl_cons, after_eq]
        rfl
      have unclosed' : ∀ i, calls[i]? = some .postprocess →
          ¬ Call.Succeeds .postprocess flow (runAlone flow (c', state') (calls.take i)) := by
        intro i found
        have whole := unclosed (i + 1) found
        rw [List.take_succ_cons, runAlone, List.foldl_cons, after_eq] at whole
        exact whole
      have keeps' : ∀ time change, .changeForces time change ∈ calls → KeepsLayouts change :=
        fun time change member => keeps time change (List.mem_cons_of_mem _ member)
      rcases ih unclosed' keeps' again with ⟨committable', shown⟩
      rw [tolerance] at committable' shown
      rw [run]
      refine ⟨committable', shown.trans ?_⟩
      rw [served]
      rfl

/-! ## The main result -/

/--
From the opening of a step to its closing, no call changes the positions, the
constraint force, the constrained velocity, the current rigid velocity or the
current mass properties of a structure, and the current velocity of the flow is
changed only by sampling it at the current time.  Closing the step changes
nothing if it stops.  Otherwise every structure takes over the last positions,
velocities and constrained velocities of the step, its part of the constraint
forces of the new time as the callers left them, and the new rigid velocity.
-/
theorem frozen_until_committed (flow : FlowTransfer α σ) {before : Coordinator shape α × σ}
    {current new : α} (opens : Call.Succeeds (.preprocess current new) flow before)
    {opened : Coordinator shape α × σ}
    (opened_eq : opened = serveAlone flow before (.preprocess current new))
    {between : List (Call shape α)}
    (unclosed : ∀ i, between[i]? = some .postprocess →
      ¬ Call.Succeeds .postprocess flow (runAlone flow opened (between.take i)))
    (keeps : ∀ time change, .changeForces time change ∈ between → KeepsLayouts change)
    {now : Coordinator shape α × σ} (now_eq : now = runAlone flow opened between) :
    now.1.structures.map currentState = opened.1.structures.map currentState ∧
      (∀ call, call ≠ .postprocess →
        ¬ call.SamplesCurrent opened.1.settings.timeTolerance (.between current new) →
          (serveAlone flow now call).1.structures.map lagrangianVelocity =
            now.1.structures.map lagrangianVelocity) ∧
      (Call.serve flow .postprocess).Ends now
        (fun _ after => now.1.CommittedWith
          (leftForces opened.1.protocol.tolerance (.between current new)
            ⟨opened.1.structures.map (·.constraintForce)⟩ between) after.1)
        fun after => after = now := by
  have started : Committable (.between current new)
      ⟨opened.1.structures.map (·.constraintForce)⟩ (overview standing opened.1) := by
    have ends : (Call.serve flow (.preprocess current new)).Ends before
        (fun _ after => Committable (.between current new)
          ⟨after.1.structures.map (·.constraintForce)⟩ (overview standing after.1))
        fun _ => True := by
      rw [Call.serve, ends_first]
      exact ends_preprocess_committable
    rw [Ends] at ends
    rw [Call.Succeeds] at opens
    rw [opened_eq, serveAlone]
    generalize (Call.serve flow (.preprocess current new)).alone before = result at *
    rcases result with ⟨_ | _, after⟩
    · cases opens
    · exact ends
  rcases opened with ⟨c, state⟩
  rcases overview_runAlone unclosed keeps started with ⟨committable, shown⟩
  rw [← now_eq] at committable shown
  rcases now with ⟨c', state'⟩
  have bodies : c'.structures.map standing = c.structures.map standing :=
    congrArg Overview.bodies shown
  refine ⟨?_, ?_, ?_⟩
  · have states := congrArg (List.map Prod.fst) bodies
    rw [List.map_map, List.map_map] at states
    exact states
  · intro call notClosing elsewhere
    have settings : c'.settings = c.settings := congrArg Overview.settings shown
    apply serveAlone_of_ends fun after => after.1.structures.map lagrangianVelocity = _
    have served := ends_serve_in_step showsCurrent_lagrangianVelocity notClosing
      committable.inStep committable.initialized committable.window_eq committable.newForces
      (fun sampled => absurd (settings ▸ sampled) elsewhere) flow state'
    exact served.imp (fun _ _ same => congrArg Overview.bodies same)
      fun _ same => congrArg Overview.bodies same
  · rw [Call.serve, ends_first]
    apply committable.ends_postprocess.imp
    · exact fun _ after committed => committed
    · exact fun after same => congrArg (·, state') same

end

/-- Calls between the opening and the closing of a step; the closing is refused at first. -/
def callsInStep : List (Call .triangle ℚ) :=
  [.interpolate 0, .changeForces 1 (·.scale 2), .advance .forwardEuler 0 1,
    .setForce ⟨[uniformForce 1]⟩ 0 2, .postprocess, .restore ⟨"triangle", 1, []⟩, .spread 0]

theorem triangle_frozen_until_committed :
    let opened := serveAlone counting (ofTriangle, 0) (.preprocess 0 1)
    let now := runAlone counting opened callsInStep
    now.1.structures.map currentState = opened.1.structures.map currentState ∧
      (Call.serve counting .postprocess).Ends now
        (fun _ after => now.1.CommittedWith
          (leftForces opened.1.protocol.tolerance (.between 0 1)
            ⟨opened.1.structures.map (·.constraintForce)⟩ callsInStep) after.1)
        fun after => after = now := by
  have opens : Call.Succeeds (.preprocess 0 1) counting (ofTriangle, 0) := by
    rw [Call.Succeeds]
    decide +kernel
  have unclosed : ∀ i, callsInStep[i]? = some .postprocess →
      ¬ Call.Succeeds .postprocess counting
        (runAlone counting (serveAlone counting (ofTriangle, 0) (.preprocess 0 1))
          (callsInStep.take i)) := by
    intro i found
    match i with
    | 4 =>
        rw [Call.Succeeds]
        decide +kernel
    | 0 | 1 | 2 | 3 | 5 | 6 =>
        cases found
    | i + 7 =>
        cases found
  have keeps : ∀ time change, .changeForces time change ∈ callsInStep → KeepsLayouts change := by
    intro time change member
    simp only [callsInStep, List.mem_cons, reduceCtorEq, false_or, List.not_mem_nil, or_false,
      Call.changeForces.injEq] at member
    rw [member.2]
    intro composite
    show (composite.parts.map (·.scale 2)).map (·.layout) = composite.parts.map (·.layout)
    rw [List.map_map]
    rfl
  have frozen := frozen_until_committed counting opens rfl unclosed keeps rfl
  exact ⟨frozen.1, frozen.2.2⟩

end Coordinator

end ImmersedBody
