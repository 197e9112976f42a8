import ImmersedBody.Proofs.Coordinator.Calls
import ImmersedBody.Proofs.Coordinator.Frames
import ImmersedBody.Proofs.Coordinator.HandOff

/-!
# The protocol after a call that stops

Most calls do their work first and carry out their operation of the protocol
last, so that a call that stops leaves the protocol as it was.  Five kinds of
calls do it the other way round: `Call.early` lists them.  When the work of such
a call stops, its operation of the protocol has been carried out already.

The main theorem is `protocol_of_stopped_call`.
-/

namespace ImmersedBody.Coordinator

open ImmersedBody.Action

variable {α σ : Type} {shape : Shape}

/-! ## Operations that come before the work -/

/-- The operation of the protocol that a call carries out before work that may stop. -/
def Call.early [Scalar α] :
    Call shape α → Option (StepProtocol α → Except (Violation α) (StepProtocol α))
  | preprocess current new =>
      some fun protocol => (protocol.beginStep current new).map (·.protocol)
  | postprocess => some fun protocol => protocol.endStep.map (·.protocol)
  | interpolate _ => some fun protocol => protocol.consumeRequest.map (·.protocol)
  | advance rule _ _ => some fun protocol => (protocol.advance rule).map (·.protocol)
  | spread _ => some fun protocol => protocol.consumeForce.map (·.protocol)
  | _ => none

/-! ## Work that does not touch the protocol -/

theorem protocol_readsThrough :
    ReadsThrough (fun _ : RigidStructure shape α => ()) fun c : Coordinator shape α => c.protocol :=
  fun _ _ _ => rfl

theorem fixes_protocol_forEachStructure
    (action : Nat → Action α (RigidStructure shape α) Unit) :
    Fixes Coordinator.protocol (forEachStructure action) :=
  fixes_forEachStructure protocol_readsThrough fun _ _ => ends_of_forall fun _ => rfl

theorem fixes_protocol_forStructures
    (action : Nat → Action α (RigidStructure shape α × σ) Unit) :
    Fixes (fun state : Coordinator shape α × σ => state.1.protocol) (forStructures action) :=
  fixes_forStructures protocol_readsThrough fun _ _ => ends_of_forall fun _ => rfl

theorem fixes_protocol_onStructure {β : Type} {part : Nat}
    (action : Action α (RigidStructure shape α) β) :
    Fixes Coordinator.protocol (onStructure part action) :=
  fixes_onStructure protocol_readsThrough fun _ => ends_of_forall fun _ => rfl

theorem fixes_protocol_restore {record : RestartRecord α} :
    Fixes Coordinator.protocol (restore record : Work shape α Unit) := by
  apply fixes_bind fixes_get
  intro c
  apply fixes_ite (fixes_refuse _)
  cases record.checkCompatible c.name c.count with
  | error refused =>
      exact fixes_attempt (fixes_refuse _)
  | ok _ =>
      exact fixes_bind (fixes_modify fun _ => rfl) fun _ => fixes_tell _

theorem fixes_protocol_setVelocity {part : Nat} {velocity : RigidVelocity α} :
    Fixes Coordinator.protocol (setVelocity part velocity : Work shape α Unit) := by
  apply fixes_bind fixes_checking
  intro _
  apply fixes_bind fixes_get
  intro c
  apply fixes_ite (fixes_refuse _)
  exact fixes_bind fixes_checking fun _ => fixes_modify fun _ => rfl

variable [Scalar α]

theorem fixes_protocol_updateMass : Fixes Coordinator.protocol (updateMass : Work shape α Unit) :=
  fixes_bind fixes_get fun _ => fixes_protocol_forEachStructure _

theorem fixes_protocol_prepare : Fixes Coordinator.protocol (prepare : Work shape α Unit) := by
  apply fixes_bind fixes_get
  intro c
  apply fixes_ite (fixes_pure ())
  apply fixes_bind fixes_protocol_updateMass
  intro _
  apply fixes_bind fixes_get
  intro described
  exact fixes_bind (fixes_tell _) fun _ => fixes_modify fun _ => rfl

theorem fixes_protocol_updateVelocity {part : Nat} {dofs : Vector α shape.dim.rigidSize} :
    Fixes Coordinator.protocol (updateVelocity part dofs : Work shape α Unit) :=
  fixes_bind fixes_checking fun _ => fixes_modify fun _ => rfl

theorem fixes_protocol_changeForces {time : α} {change : CompositeField α → CompositeField α} :
    Fixes Coordinator.protocol (changeForces time change : Work shape α _) := by
  intro c
  rw [changeForces]
  simp only [ends_bind, ends_get, ends_checking]
  cases c.protocol.queryForce time with
  | error violation =>
      trivial
  | ok level =>
      cases level with
      | none =>
          simp only [ends_bind, ends_tell, ends_pure]
      | some level =>
          simp only
          cases c.forcesAt level with
          | none =>
              simp only [ends_refuse]
          | some forces =>
              simp only [ends_bind, ends_set, ends_pure]
              cases level <;> rfl

/-! ## Work that stops before its operation of the protocol -/

section

variable {β γ τ : Type}

/-- When the action stops, the protocol is what it was. -/
def StopsUntouched (protocolOf : τ → StepProtocol α) (action : Action α τ β) : Prop :=
  ∀ state, action.Ends state (fun _ _ => True) fun after => protocolOf after = protocolOf state

variable {protocolOf : τ → StepProtocol α} {action : Action α τ β}

omit [Scalar α] in
theorem stopsUntouched_of_fixes (fixes : Fixes protocolOf action) :
    StopsUntouched protocolOf action :=
  fun state => (fixes state).imp (fun _ _ _ => trivial) fun _ same => same

omit [Scalar α] in
theorem stopsUntouched_bind {f : β → Action α τ γ} (first : Fixes protocolOf action)
    (later : ∀ value, StopsUntouched protocolOf (f value)) :
    StopsUntouched protocolOf (action >>= f) := by
  intro state
  rw [ends_bind]
  apply (first state).imp _ fun _ same => same
  intro value after same
  rw [← same]
  exact later value after

omit [Scalar α] in
theorem stopsUntouched_map {f : β → γ} (stops : StopsUntouched protocolOf action) :
    StopsUntouched protocolOf (f <$> action) := by
  intro state
  rw [ends_map]
  exact stops state

omit [Scalar α] in
theorem stopsUntouched_first (stops : StopsUntouched protocolOf action) :
    StopsUntouched (fun state : τ × σ => protocolOf state.1) (Action.first action) := by
  intro state
  rw [ends_first]
  exact stops state.1

omit [Scalar α] in
theorem stopsUntouched_committing
    {operation : StepProtocol α → Except (Violation α) (StepOutcome α β)} :
    StopsUntouched Coordinator.protocol (committing operation : Work shape α β) := by
  intro c
  rw [ends_committing]
  cases operation c.protocol with
  | error violation =>
      rfl
  | ok outcome =>
      trivial

omit [Scalar α] in
theorem stopsUntouched_attempting {what : Attempt} {work : Work shape α β}
    (stops : StopsUntouched Coordinator.protocol work) :
    StopsUntouched Coordinator.protocol (attempting what work) := by
  intro c
  rw [ends_attempting]
  exact stops c

end

theorem stopsUntouched_setForce {composite : CompositeField α} {time factor : α} :
    StopsUntouched Coordinator.protocol (setForce composite time factor : Work shape α Unit) := by
  apply stopsUntouched_bind fixes_get
  intro c
  apply stopsUntouched_bind fixes_checking
  intro _
  apply stopsUntouched_bind
  · intro c'
    rw [ends_of]
    cases matchForces c.name 0 c.structures composite.parts <;> rfl
  · intro _
    apply stopsUntouched_bind (fixes_protocol_forEachStructure _)
    intro _
    exact stopsUntouched_map (stopsUntouched_attempting stopsUntouched_committing)

theorem stopsUntouched_computeForce {part : Nat} {force : NodalField α} :
    StopsUntouched Coordinator.protocol (computeForce part force : Work shape α _) := by
  apply stopsUntouched_bind fixes_get
  intro c
  apply stopsUntouched_bind fixes_checking
  intro _
  apply stopsUntouched_bind (fixes_protocol_onStructure _)
  intro total
  exact stopsUntouched_map stopsUntouched_committing

theorem stopsUntouched_setBodyVelocity {part : Nat} {dofs : Vector α shape.dim.rigidSize} :
    StopsUntouched (fun state : Coordinator shape α × CompositeField α => state.1.protocol)
      (setBodyVelocity part dofs) := by
  rintro ⟨c, composite⟩
  rw [setBodyVelocity, ends_of, Task.alone_bind]
  have expanded : Fixes Coordinator.protocol (do
      let window ← checking .setBodyVelocity fun c => do
        c.checkPart part
        c.checkParts composite
        c.protocol.check .setVelocity
      onStructure part (expandVelocity c.seat c.name part (.ofDofs shape.dim dofs) window.new) :
        Work shape α (Option (NodalField α))) :=
    fixes_bind fixes_checking fun _ => fixes_protocol_onStructure _
  have same := expanded c
  rw [Ends, Action.alone] at same
  generalize (on _ c).alone = result at *
  rcases result with ⟨stop | velocity, after⟩
  · exact same
  · cases velocity with
    | none =>
        exact same
    | some velocity =>
        cases composite.parts[part]? with
        | none =>
            exact same
        | some target =>
            cases copied : target.copyFrom velocity with
            | error refused =>
                simp only [copied]
                exact same
            | ok field =>
                have records : StopsUntouched Coordinator.protocol
                    (committing fun p => p.record .setVelocity : Work shape α (StepWindow α)) :=
                  stopsUntouched_committing
                have last := records after
                rw [Ends, Action.alone] at last
                simp only [copied, Task.alone_bind]
                generalize (on _ after).alone = result at *
                rcases result with ⟨_ | window, final⟩
                · exact last.trans same
                · trivial

/-! ## Work that stops after its operation of the protocol -/

section

variable {β γ τ : Type}

/-- When the action stops, the protocol is what it was, or what an operation has made of it. -/
def HaltsAround (protocolOf : τ → StepProtocol α)
    (operation : StepProtocol α → Except (Violation α) (StepProtocol α))
    (action : Action α τ β) : Prop :=
  ∀ state, action.Ends state (fun _ _ => True) fun after =>
    protocolOf after = protocolOf state ∨ operation (protocolOf state) = .ok (protocolOf after)

/-- The action carries out an operation of the protocol, or stops without it. -/
def CarriesOut (protocolOf : τ → StepProtocol α)
    (operation : StepProtocol α → Except (Violation α) (StepProtocol α))
    (action : Action α τ β) : Prop :=
  ∀ state, action.Ends state (fun _ after => operation (protocolOf state) = .ok (protocolOf after))
    fun after => protocolOf after = protocolOf state

variable {protocolOf : τ → StepProtocol α} {action : Action α τ β}
  {operation : StepProtocol α → Except (Violation α) (StepProtocol α)}

omit [Scalar α] in
theorem haltsAround_bind {f : β → Action α τ γ} (first : Fixes protocolOf action)
    (later : ∀ value, HaltsAround protocolOf operation (f value)) :
    HaltsAround protocolOf operation (action >>= f) := by
  intro state
  rw [ends_bind]
  apply (first state).imp _ fun _ same => Or.inl same
  intro value after same
  rw [← same]
  exact later value after

omit [Scalar α] in
theorem CarriesOut.haltsAround {f : β → Action α τ γ}
    (carries : CarriesOut protocolOf operation action)
    (later : ∀ value, Fixes protocolOf (f value)) :
    HaltsAround protocolOf operation (action >>= f) := by
  intro state
  rw [ends_bind]
  apply (carries state).imp _ fun _ same => Or.inl same
  intro value between accepted
  apply (later value between).imp fun _ _ _ => trivial
  intro after same
  rw [same]
  exact Or.inr accepted

omit [Scalar α] in
theorem haltsAround_first {action : Action α τ β}
    (halts : HaltsAround protocolOf operation action) :
    HaltsAround (fun state : τ × σ => protocolOf state.1) operation (Action.first action) := by
  intro state
  rw [ends_first]
  exact halts state.1

omit [Scalar α] in
theorem carriesOut_first {action : Action α τ β}
    (carries : CarriesOut protocolOf operation action) :
    CarriesOut (fun state : τ × σ => protocolOf state.1) operation (Action.first action) := by
  intro state
  rw [ends_first]
  exact carries state.1

omit [Scalar α] in
theorem carriesOut_committing {what : Attempt}
    {operation : StepProtocol α → Except (Violation α) (StepOutcome α β)} :
    CarriesOut Coordinator.protocol (fun protocol => (operation protocol).map (·.protocol))
      (attempting what (committing operation) : Work shape α β) := by
  intro c
  rw [ends_attempting, ends_committing]
  cases accepted : operation c.protocol with
  | error violation =>
      rfl
  | ok outcome =>
      show (operation c.protocol).map (·.protocol) = .ok outcome.protocol
      rw [accepted]
      rfl

end

theorem haltsAround_preprocess {current new : α} :
    HaltsAround Coordinator.protocol
      (fun protocol => (protocol.beginStep current new).map (·.protocol))
      (preprocess current new : Work shape α Unit) := by
  apply haltsAround_bind fixes_get
  intro c
  apply haltsAround_bind fixes_protocol_prepare
  intro _
  apply carriesOut_committing.haltsAround
  intro window
  have opened : Fixes Coordinator.protocol (do
      modify fun c => { c with structures := c.structures.map (·.opened window) }
      let forces := (← get).structures.map (·.constraintForce)
      let currentForces ← Action.collective (CompositeField.assemble forces)
      modify fun c => { c with currentForces := some currentForces }
      let newForces ← Action.collective (CompositeField.assemble forces)
      modify fun c => { c with newForces := some newForces } : Work shape α Unit) := by
    refine fixes_bind (fixes_modify ?_) fun _ => ?_
    · exact fun _ => rfl
    apply fixes_bind fixes_get
    intro opened
    apply fixes_bind (fixes_collective _)
    intro currentForces
    refine fixes_bind (fixes_modify ?_) fun _ => ?_
    · exact fun _ => rfl
    apply fixes_bind (fixes_collective _)
    intro newForces
    exact fixes_modify fun _ => rfl
  split
  · exact fixes_bind fixes_protocol_updateMass fun _ => opened
  · exact opened

omit [Scalar α] in
theorem haltsAround_postprocess :
    HaltsAround Coordinator.protocol (fun protocol => protocol.endStep.map (·.protocol))
      (postprocess : Work shape α Unit) := by
  apply haltsAround_bind fixes_get
  intro c
  apply carriesOut_committing.haltsAround
  intro window
  apply fixes_bind fixes_get
  intro ended
  refine fixes_bind (fixes_modify ?_) fun _ => ?_
  · exact fun _ => rfl
  rcases ended.currentForces with _ | forces
  -- Whether or not there were forces to take apart, the same work is left.
  on_goal 2 => refine fixes_bind (fixes_collective _) fun _ => ?_
  all_goals
    apply fixes_bind fixes_get
    intro released
    refine fixes_bind (fixes_modify ?_) fun _ => ?_
    · exact fun _ => rfl
    cases released.newForces with
    | none =>
        exact fixes_bind (fixes_pure none) fun _ => fixes_protocol_forEachStructure _
    | some forces =>
        exact fixes_bind (fixes_bind (fixes_collective _) fun _ => fixes_pure _)
          fun _ => fixes_protocol_forEachStructure _

theorem haltsAround_advance {rule : AdvanceRule} {current new : α} :
    HaltsAround Coordinator.protocol (fun protocol => (protocol.advance rule).map (·.protocol))
      (advance rule current new : Work shape α Unit) := by
  apply haltsAround_bind fixes_get
  intro c
  apply haltsAround_bind fixes_checking
  intro _
  apply carriesOut_committing.haltsAround
  intro window
  cases rule with
  | forwardEuler | midpoint =>
      exact fixes_bind (fixes_protocol_forEachStructure _) fun _ => fixes_tell _
  | trapezoidal =>
      exact fixes_tell _

omit [Scalar α] in
theorem haltsAround_onDemand {what : Attempt}
    {check : Coordinator shape α → Except (Violation α) β}
    {consume : StepProtocol α → Except (Violation α) (StepOutcome α Bool)}
    {each : Coordinator shape α → β → Nat → Action α (RigidStructure shape α × σ) Unit} :
    HaltsAround (fun state : Coordinator shape α × σ => state.1.protocol)
      (fun protocol => (consume protocol).map (·.protocol)) (onDemand what check consume each) := by
  apply haltsAround_bind fixes_get
  intro state
  apply haltsAround_bind (fixes_first fixes_checking)
  intro value
  apply (carriesOut_first carriesOut_committing).haltsAround
  intro demanded
  exact fixes_ite (fixes_protocol_forStructures _) (fixes_pure ())

theorem haltsAround_interpolate {flow : FlowTransfer α σ} {time : α} :
    HaltsAround (fun state : Coordinator shape α × σ => state.1.protocol)
      (fun protocol => protocol.consumeRequest.map (·.protocol)) (interpolate flow time) := by
  rw [interpolate_eq_onDemand]
  exact haltsAround_onDemand

theorem haltsAround_spread {flow : FlowTransfer α σ} {time : α} :
    HaltsAround (fun state : Coordinator shape α × σ => state.1.protocol)
      (fun protocol => protocol.consumeForce.map (·.protocol)) (spread flow time) := by
  rw [spread_eq_onDemand]
  exact haltsAround_onDemand

/-! ## The main result -/

/--
When a call stops, the protocol is what it was before the call, except for calls
that carry out their operation of the protocol before their other work.  After
one of these, the protocol can also be the one that this operation has led to.
-/
theorem protocol_of_stopped_call (flow : FlowTransfer α σ) (call : Call shape α)
    (state : Coordinator shape α × σ) :
    (call.serve flow).Ends state (fun _ _ => True) fun after =>
      after.1.protocol = state.1.protocol ∨
        ∃ operation, call.early = some operation ∧
          operation state.1.protocol = .ok after.1.protocol := by
  have untouched {action : Action α (Coordinator shape α × σ) Unit}
      (stops : StopsUntouched (fun state : Coordinator shape α × σ => state.1.protocol) action) :
      action.Ends state (fun _ _ => True) fun after =>
        after.1.protocol = state.1.protocol ∨
          ∃ operation, call.early = some operation ∧
            operation state.1.protocol = .ok after.1.protocol :=
    (stops state).imp (fun _ _ done => done) fun _ same => Or.inl same
  have around {action : Action α (Coordinator shape α × σ) Unit}
      {operation : StepProtocol α → Except (Violation α) (StepProtocol α)}
      (early : call.early = some operation)
      (halts : HaltsAround (fun state : Coordinator shape α × σ => state.1.protocol) operation
        action) :
      action.Ends state (fun _ _ => True) fun after =>
        after.1.protocol = state.1.protocol ∨
          ∃ operation, call.early = some operation ∧
            operation state.1.protocol = .ok after.1.protocol :=
    (halts state).imp (fun _ _ done => done) fun _ halted =>
      halted.imp_right fun accepted => ⟨operation, early, accepted⟩
  cases call with
  | preprocess current new =>
      exact around rfl (haltsAround_first haltsAround_preprocess)
  | postprocess =>
      exact around rfl (haltsAround_first haltsAround_postprocess)
  | advance rule current new =>
      exact around rfl (haltsAround_first haltsAround_advance)
  | interpolate time =>
      exact around rfl haltsAround_interpolate
  | spread time =>
      exact around rfl haltsAround_spread
  | prepare =>
      exact untouched (stopsUntouched_of_fixes (fixes_first fixes_protocol_prepare))
  | listen listener =>
      exact untouched (stopsUntouched_of_fixes (fixes_first (fixes_modify fun _ => rfl)))
  | createComposite =>
      exact untouched (stopsUntouched_of_fixes (fixes_bind fixes_get fun _ =>
        fixes_bind (fixes_collective _) fun _ => fixes_pure ()))
  | fluidCalls current new cycle | restartRecord =>
      exact untouched (stopsUntouched_of_fixes (fixes_pure ()))
  | requestInterpolation time =>
      exact untouched
        (stopsUntouched_first (stopsUntouched_attempting stopsUntouched_committing))
  | readVelocities composite time factor =>
      apply untouched
      intro state
      simp only [Call.serve, ends_of]
      cases state.1.readVelocities time factor composite <;> trivial
  | skipForce time =>
      exact untouched (stopsUntouched_of_fixes
        (fixes_first (fixes_bind fixes_get fun _ => fixes_tell _)))
  | setForce composite time factor =>
      exact untouched (stopsUntouched_first stopsUntouched_setForce)
  | changeForces time change =>
      exact untouched (stopsUntouched_of_fixes (fixes_first
        (fixes_bind fixes_protocol_changeForces fun _ => fixes_pure ())))
  | computeForce part force =>
      exact untouched (stopsUntouched_first (stopsUntouched_map stopsUntouched_computeForce))
  | setBodyVelocity part dofs composite =>
      apply untouched
      intro state
      have sets : StopsUntouched
          (fun state : Coordinator shape α × CompositeField α => state.1.protocol)
          (Coordinator.setBodyVelocity part dofs) := stopsUntouched_setBodyVelocity
      have set := sets (state.1, composite)
      simp only [Call.serve, ends_of, Task.alone_bind]
      rw [Ends, Action.alone] at set
      generalize ((Coordinator.setBodyVelocity part dofs).on (state.1, composite)).alone =
        result at *
      rcases result with ⟨_ | _, after⟩ <;> exact set
  | updateVelocity part dofs =>
      exact untouched (stopsUntouched_of_fixes (fixes_first fixes_protocol_updateVelocity))
  | setVelocity part velocity =>
      exact untouched (stopsUntouched_of_fixes (fixes_first fixes_protocol_setVelocity))
  | restore record =>
      exact untouched (stopsUntouched_of_fixes (fixes_first fixes_protocol_restore))

/-- A flow that cannot be sampled. -/
def unreachableFlow : FlowTransfer ℚ Unit where
  interpolate _ _ _ state := .error (.because (.external "no flow")) state
  spread _ _ _ _ state := .ok () state

/-- A request is used up and the phase moves on although the interpolation failed. -/
theorem failed_interpolation_changes_protocol :
    let before := runAlone unreachableFlow (ofTriangle, ())
      [.preprocess 0 1, .requestInterpolation (1 / 2)]
    let call : Call .triangle ℚ := .interpolate (1 / 2)
    ((call.serve unreachableFlow).alone before).1.toOption = none ∧
      before.1.protocol.phase = .preprocessed ∧
      before.1.protocol.velocityRequested = true ∧
      (serveAlone unreachableFlow before call).1.protocol.phase = .velocityInterpolated ∧
      (serveAlone unreachableFlow before call).1.protocol.velocityRequested = false := by
  decide +kernel

end ImmersedBody.Coordinator
