import ImmersedBody.Proofs.Coordinator.ConstantVelocity
import ImmersedBody.Proofs.Coordinator.Failures
import ImmersedBody.Proofs.TimeStep.Matching

/-!
# Plain steps

A plain step is opened, predicts the half time, does one midpoint step and is closed.
If all structures move freely with a velocity that is not set, nothing stops such a
step: the mass properties can be computed all along the path, the times are those of
the step, and the forces of the step are those that it was opened with.

The main result is `Ready.run_plainSteps`: any number of plain steps of any lengths is
completed.
-/

namespace ImmersedBody

open ImmersedBody.Action

variable {shape : Shape} {σ : Type}

namespace StepProtocol

/-- The protocol of a step whose positions have been predicted and advanced. -/
def advanced (protocol : StepProtocol ℝ) (window : StepWindow ℝ) : StepProtocol ℝ :=
  { protocol.opened window with phase := .positionAdvanced, predicted := true }

variable (protocol : StepProtocol ℝ) (window : StepWindow ℝ)

theorem predict_opened :
    (protocol.opened window).advance .forwardEuler = .ok ⟨window, [], protocol.advanced window⟩ :=
  rfl

theorem advance_advanced :
    (protocol.advanced window).advance .midpoint = .ok ⟨window, [], protocol.advanced window⟩ :=
  rfl

theorem endStep_advanced :
    (protocol.advanced window).endStep = .ok ⟨window, [.ended window],
      { (protocol.advanced window).cleared with phase := .postprocessed, window := none }⟩ :=
  rfl

end StepProtocol

namespace RigidStructure

/-- A structure that rests on a path on which it can move freely. -/
def Waits (order : Nat) (body : RigidStructure shape ℝ) : Prop :=
  body.step = none ∧ ∃ mass velocity first time, SetsOut order mass velocity first ∧
    Rests mass velocity first time (· = velocity) body

/-- A structure that moves freely on a path, in a step of a length. -/
def Moves (order : Nat) (length : ℝ) (moved : Prop) (body : RigidStructure shape ℝ) : Prop :=
  ∃ mass velocity first time, SetsOut order mass velocity first ∧
    InMotion mass velocity first time length moved body

variable {order : Nat} {body : RigidStructure shape ℝ}

theorem Waits.withMass (waits : body.Waits order) (mass : MassProperties ℝ) :
    (body.withMass mass).Waits order := by
  rcases waits with ⟨closed, _, velocity, first, time, out, rests⟩
  exact ⟨closed, _, velocity, first, time, out, rests.withMass mass⟩

theorem Waits.exists_mass (waits : body.Waits order) :
    ∃ mass, (body.massAt body.positions order).alone = .ok mass := by
  rcases waits with ⟨-, mass, velocity, first, time, out, rests⟩
  rcases out.exists_mass rests.onPath rests.follows with ⟨mass', computed, -⟩
  exact ⟨mass', computed⟩

theorem Waits.opened (waits : body.Waits order) {mass : MassProperties ℝ}
    (computed : (body.massAt body.positions order).alone = .ok mass) (window : StepWindow ℝ) :
    ((body.withMass mass).opened window).Moves order window.length False := by
  rcases waits with ⟨-, _, velocity, first, time, out, rests⟩
  exact ⟨_, velocity, first, time, out, rests.opened out computed window⟩

end RigidStructure

namespace Coordinator

open RigidStructure

variable {settings : Settings ℝ} {count : Nat} {c : Coordinator shape ℝ} {window : StepWindow ℝ}
  {flow : FlowTransfer ℝ σ} {start : Coordinator shape ℝ × σ}

/-! ## Calls that do not stop -/

/-- The times of the step fit an update of the positions that the protocol accepts. -/
theorem checkTimes_eq_ok {current new : ℝ} (tolerant : 0 ≤ c.settings.timeTolerance)
    (opened : c.protocol.window = some (.between current new)) {rule : AdvanceRule}
    {outcome : StepOutcome ℝ (StepWindow ℝ)} (accepted : c.protocol.advance rule = .ok outcome) :
    c.checkTimes rule current new = .ok () ∧ outcome.value = .between current new := by
  rcases StepProtocol.advance_eq_ok_iff.mp accepted with ⟨next, window, allowed, found, -, rfl⟩
  rw [opened, Option.some.injEq] at found
  have atCurrent := (StepWindow.between current new).match?_get tolerant .current []
  have atNew := (StepWindow.between current new).match?_get tolerant .new []
  have checks := StepProtocol.check_eq_ok_iff.mpr ⟨next, allowed, opened⟩
  rw [show TimeLevels.get _ _ = current from rfl] at atCurrent
  rw [show TimeLevels.get _ _ = new from rfl] at atNew
  refine ⟨?_, found.symm⟩
  simp only [checkTimes, bind_eq_ok_iff, checks, Except.ok.injEq, exists_eq_left', atCurrent,
    atNew, exists_const, and_self]

/-- An update of the positions that the protocol accepts, and that stops at no structure. -/
theorem Standing.serve_advance {fits done : Nat → RigidStructure shape ℝ → Prop}
    (standing : start.1.Standing settings count fits) (tolerant : 0 ≤ settings.timeTolerance)
    {current new : ℝ} (opened : start.1.protocol.window = some (.between current new))
    {rule : AdvanceRule} {outcome : StepOutcome ℝ (StepWindow ℝ)}
    (accepted : start.1.protocol.advance rule = .ok outcome)
    (moves : ∀ part body, fits part body →
      (advancing start.1 rule (.between current new) part).Ends body
        (fun _ after => done part after) fun _ => False) (flow : FlowTransfer ℝ σ) :
    Call.Succeeds (.advance rule current new) flow start ∧
      (serveAlone flow start (.advance rule current new)).1.Standing settings count done ∧
      (serveAlone flow start (.advance rule current new)).1.protocol = outcome.protocol := by
  rw [← standing.settings_eq] at tolerant
  rcases checkTimes_eq_ok tolerant opened accepted with ⟨checked, value_eq⟩
  rw [← value_eq] at moves
  have served : (Call.serve flow (.advance rule current new)).Ends start
      (fun _ after => after.1.Standing settings count done ∧ after.1.protocol = outcome.protocol)
      fun _ => False := by
    rw [Call.serve, ends_first]
    apply (standing.ends_advance_accepted checked accepted moves).imp
    · exact fun _ after advanced => advanced
    · rintro after ⟨-, -, -, -, -, impossible⟩
      exact impossible
  exact succeeds_of_ends served

/-- Outside of a step the next one is opened if all structures can be weighed. -/
theorem Standing.serve_preprocess {fits : Nat → RigidStructure shape ℝ → Prop}
    (standing : start.1.Standing settings count fits)
    (outside : start.1.protocol.phase.inStep = false)
    (weighs : ∀ part body mass, fits part body →
      (body.massAt body.positions settings.quadratureOrder).alone = .ok mass →
        fits part (body.withMass mass))
    (weighable : ∀ part body, fits part body → ∃ mass,
      (body.massAt body.positions settings.quadratureOrder).alone = .ok mass)
    (current new : ℝ) (flow : FlowTransfer ℝ σ) :
    Call.Succeeds (.preprocess current new) flow start ∧
      (serveAlone flow start (.preprocess current new)).1.Standing settings count
        (fun part after => ∃ body, Weighed settings.quadratureOrder fits part body ∧
          after = body.opened (.between current new)) ∧
      (serveAlone flow start (.preprocess current new)).1.protocol =
        start.1.protocol.opened (.between current new) := by
  have served : (Call.serve flow (.preprocess current new)).Ends start
      (fun _ after => after.1.Standing settings count (fun part after => ∃ body,
          Weighed settings.quadratureOrder fits part body ∧
            after = body.opened (.between current new)) ∧
        after.1.protocol = start.1.protocol.opened (.between current new))
      fun _ => False := by
    rw [Call.serve, ends_first]
    apply (Standing.ends_preprocess weighs standing).imp
    · rintro _ after ⟨opened, -, protocol⟩
      exact ⟨opened, protocol⟩
    · rintro after ⟨-, -, unweighable⟩
      rcases unweighable outside with ⟨part, body, -, fit, refused⟩
      rcases weighable part body fit with ⟨mass, computed⟩
      exact refused mass computed
  exact succeeds_of_ends served

/-- A coordinator between two steps whose structures wait. -/
structure Ready (settings : Settings ℝ) (count : Nat) (c : Coordinator shape ℝ) : Prop where
  standing : c.Standing settings count fun _ body => body.Waits settings.quadratureOrder
  outside : c.protocol.phase.inStep = false
  tolerant : 0 ≤ settings.timeTolerance

/-- A coordinator in a step that nothing stops, with a protocol. -/
structure Unhindered (settings : Settings ℝ) (count : Nat) (window : StepWindow ℝ) (moved : Prop)
    (protocol : StepProtocol ℝ) (c : Coordinator shape ℝ) : Prop where
  standing : c.Standing settings count fun _ body =>
    body.Moves settings.quadratureOrder window.length moved
  protocol_eq : c.protocol = protocol
  committable : ∃ forces, Committable window forces (overview RigidStructure.standing c)

/-- A step can be opened. -/
theorem Ready.serve_preprocess (ready : start.1.Ready settings count) (current new : ℝ)
    (flow : FlowTransfer ℝ σ) :
    Call.Succeeds (.preprocess current new) flow start ∧
      (serveAlone flow start (.preprocess current new)).1.Unhindered settings count
        (.between current new) False (start.1.protocol.opened (.between current new)) := by
  rcases ready.standing.serve_preprocess ready.outside (fun _ _ mass waits _ => waits.withMass mass)
    (fun _ _ waits => waits.exists_mass) current new flow with ⟨succeeds, opened, protocol⟩
  have served : (Call.serve flow (.preprocess current new)).Ends start
      (fun _ after => Committable (.between current new)
        ⟨after.1.structures.map (·.constraintForce)⟩ (overview RigidStructure.standing after.1))
      fun _ => True := by
    rw [Call.serve, ends_first]
    exact ends_preprocess_committable
  refine ⟨succeeds, opened.imp ?_, protocol, _, serveAlone_of_succeeds succeeds served⟩
  rintro _ _ ⟨_, ⟨body, mass, waits, computed, rfl⟩, rfl⟩
  exact waits.opened computed _

namespace Unhindered

variable {moved : Prop} {protocol : StepProtocol ℝ} {current new : ℝ}

/-- The positions are advanced by a rule that the protocol accepts. -/
theorem serve_advance
    (unhindered : start.1.Unhindered settings count (.between current new) moved protocol)
    (tolerant : 0 ≤ settings.timeTolerance) {rule : AdvanceRule}
    {outcome : StepOutcome ℝ (StepWindow ℝ)} (accepted : protocol.advance rule = .ok outcome)
    (flow : FlowTransfer ℝ σ) :
    Call.Succeeds (.advance rule current new) flow start ∧
      (serveAlone flow start (.advance rule current new)).1.Unhindered settings count
        (.between current new) (moved ∨ rule = .midpoint) outcome.protocol := by
  rcases unhindered.committable with ⟨forces, committable⟩
  have moves (part : Nat) (body : RigidStructure shape ℝ)
      (moves : body.Moves settings.quadratureOrder (StepWindow.between current new).length moved) :
      (advancing start.1 rule (.between current new) part).Ends body
        (fun _ after => after.Moves settings.quadratureOrder
          (StepWindow.between current new).length (moved ∨ rule = .midpoint))
        fun _ => False := by
    rcases moves with ⟨mass, velocity, first, time, out, moving⟩
    rw [← unhindered.standing.settings_eq] at out ⊢
    apply (ends_advancing_moving out unhindered.standing.serial rule moving).imp
    · exact fun _ after advanced => ⟨mass, velocity, first, time, out, advanced⟩
    · exact fun _ impossible => impossible
  rw [← unhindered.protocol_eq] at accepted
  rcases unhindered.standing.serve_advance tolerant committable.window_eq accepted moves flow with
    ⟨succeeds, standing, protocol_eq⟩
  refine ⟨succeeds, standing, protocol_eq, ?_⟩
  have unclosed : (Call.advance rule current new : Call shape ℝ) = .postprocess →
      ¬ Call.Succeeds (.advance rule current new) flow (start.1, start.2) := by
    intro same
    cases same
  have shown := overview_serveAlone committable unclosed
  exact ⟨forces, shown ▸ committable.withForces rfl⟩

/-- Whatever becomes of the structures, the protocol of a step that is closed has ended it. -/
theorem ends_postprocess_protocol {outcome : StepOutcome ℝ (StepWindow ℝ)}
    (accepted : c.protocol.endStep = .ok outcome) :
    (postprocess : Work shape ℝ Unit).Ends c (fun _ after => after.protocol = outcome.protocol)
      fun after => after.protocol = outcome.protocol := by
  rw [postprocess]
  simp only [ends_bind, ends_get, ends_attempting, ends_committing, accepted, ends_modify]
  cases c.currentForces <;> cases c.newForces <;>
    simp only [ends_bind, ends_get, ends_modify, ends_collective, alone_release, ends_map,
      ends_pure] <;>
    exact fixes_protocol_forEachStructure _ _

/-- The step is closed if all structures have moved and the protocol accepts it. -/
theorem serve_postprocess {window : StepWindow ℝ}
    (unhindered : start.1.Unhindered settings count window True protocol)
    {outcome : StepOutcome ℝ (StepWindow ℝ)} (accepted : protocol.endStep = .ok outcome)
    (flow : FlowTransfer ℝ σ) :
    Call.Succeeds .postprocess flow start ∧
      (serveAlone flow start .postprocess).1.Standing settings count (fun _ body =>
        body.Waits settings.quadratureOrder) ∧
      (serveAlone flow start .postprocess).1.protocol = outcome.protocol := by
  rcases unhindered.committable with ⟨forces, committable⟩
  rw [← unhindered.protocol_eq] at accepted
  have commits (objectName : String) (forces : Option (List (NodalField ℝ))) (part : Nat)
      (body : RigidStructure shape ℝ)
      (moves : body.Moves settings.quadratureOrder window.length True) :
      (commit objectName forces part).Ends body
        (fun _ after => after.Waits settings.quadratureOrder) fun _ => True := by
    rcases moves with ⟨mass, velocity, first, time, out, moving⟩
    apply (ends_commit_moving moving).imp
    · exact fun _ after done => ⟨done.1, mass, velocity, first, _, out, done.2⟩
    · exact fun _ _ => trivial
  have served : (Call.serve flow .postprocess).Ends start
      (fun _ after => after.1.Standing settings count (fun _ body =>
          body.Waits settings.quadratureOrder) ∧ after.1.protocol = outcome.protocol)
      fun _ => False := by
    rw [Call.serve, ends_first]
    apply ((unhindered.standing.ends_postprocess commits).and (committable.ends_postprocess.and
      (ends_postprocess_protocol accepted))).imp
    · exact fun _ after done => ⟨done.1, done.2.2⟩
    · -- A closing that stops would have changed nothing.
      rintro after ⟨-, rfl, protocol⟩
      rcases StepProtocol.endStep_eq_ok_iff.mp accepted with ⟨next, window, -, opened, -, rfl⟩
      rw [protocol] at opened
      cases opened
  exact succeeds_of_ends served

end Unhindered

/-! ## Plain steps -/

/-- A step of an opening, a prediction, a midpoint step and a closing. -/
def StepCalls.plain (current new : ℝ) : StepCalls shape ℝ :=
  ⟨[], current, new, [.advance .forwardEuler current new, .advance .midpoint current new]⟩

/-- Plain steps from and to the given times. -/
def StepCalls.plainSteps (windows : List (ℝ × ℝ)) : List (StepCalls shape ℝ) :=
  windows.map fun window => .plain window.1 window.2

namespace StepCalls

variable {current new : ℝ}

/-- The coordinator and the flow before the closing of a plain step. -/
noncomputable def beforeClosing (flow : FlowTransfer ℝ σ) (start : Coordinator shape ℝ × σ)
    (current new : ℝ) : Coordinator shape ℝ × σ :=
  serveAlone flow
    (serveAlone flow (serveAlone flow start (.preprocess current new))
      (.advance .forwardEuler current new))
    (.advance .midpoint current new)

theorem runAlone_plain (start : Coordinator shape ℝ × σ) :
    runAlone flow start (plain current new).calls =
      serveAlone flow (beforeClosing flow start current new) .postprocess :=
  rfl

theorem completes_plain {part : Nat}
    (opens : Call.Succeeds (.preprocess current new) flow start)
    (moves : Call.Succeeds (.advance .midpoint current new) flow
      (serveAlone flow (serveAlone flow start (.preprocess current new))
        (.advance .forwardEuler current new)))
    (closes : Call.Succeeds .postprocess flow (beforeClosing flow start current new)) :
    (plain current new).Completes flow part start where
  idle := trivial
  opens := opens
  undisturbed := by
    refine ⟨?_, ?_, trivial⟩ <;> rintro (impossible | impossible | impossible) <;>
      exact nomatch impossible
  moves := Or.inr (Or.inl ⟨rfl, moves⟩)
  closes := closes

end StepCalls

/-- A plain step is completed if all structures wait, and afterwards they wait again. -/
theorem Ready.run_plain (ready : start.1.Ready settings count) (current new : ℝ)
    (flow : FlowTransfer ℝ σ) :
    (∀ part, (StepCalls.plain current new).Completes flow part start) ∧
      (runAlone flow start (StepCalls.plain current new).calls).1.Ready settings count := by
  rcases ready.serve_preprocess current new flow with ⟨opens, opened⟩
  rcases opened.serve_advance ready.tolerant (start.1.protocol.predict_opened _) flow with
    ⟨predicts, predicted⟩
  rcases predicted.serve_advance ready.tolerant (start.1.protocol.advance_advanced _) flow with
    ⟨moves, moved⟩
  rw [eq_true (Or.inr rfl)] at moved
  rcases moved.serve_postprocess (start.1.protocol.endStep_advanced _) flow with
    ⟨closes, waits, closed⟩
  refine ⟨fun part => StepCalls.completes_plain opens moves closes, ?_⟩
  have outside : (serveAlone flow (StepCalls.beforeClosing flow start current new)
      .postprocess).1.protocol.phase.inStep = false := by
    rw [StepCalls.beforeClosing, closed]
    rfl
  rw [StepCalls.runAlone_plain]
  exact ⟨waits, outside, ready.tolerant⟩

/-- Plain steps of any lengths are completed, one after the other; then all structures wait. -/
theorem Ready.run_plainSteps (flow : FlowTransfer ℝ σ) {windows : List (ℝ × ℝ)} :
    ∀ {start : Coordinator shape ℝ × σ}, start.1.Ready settings count →
      (∀ part, StepCalls.AllComplete flow part start (StepCalls.plainSteps windows)) ∧
        (runAlone flow start
          ((StepCalls.plainSteps windows).flatMap (·.calls))).1.Ready settings count := by
  induction windows with
  | nil =>
      exact fun ready => ⟨fun _ => trivial, ready⟩
  | cons window windows ih =>
      intro start ready
      rcases ready.run_plain window.1 window.2 flow with ⟨completes, again⟩
      rcases ih again with ⟨others, last⟩
      refine ⟨fun part => ⟨completes part, others part⟩, ?_⟩
      rw [StepCalls.plainSteps, List.map_cons, List.flatMap_cons, runAlone_append]
      exact last

end Coordinator

end ImmersedBody
