import ImmersedBody.Proofs.Coordinator.OpenSteps

/-!
# Constraint forces that are handed out

A caller changes composite constraint forces that are handed out at the current or at the
new time of a step.  Those that are handed out at the current time are lost when the step
is closed.  Those that are handed out at the new time are committed, provided that the
tolerance keeps the two times apart: otherwise the new time is taken for the current one.

The main theorem is `forces_handed_out`.
-/

namespace ImmersedBody.Coordinator

open ImmersedBody.Action RigidStructure

variable {α σ : Type} [Scalar α] {shape : Shape} {c : Coordinator shape α}
  {flow : FlowTransfer α σ} {window : StepWindow α} {forces : CompositeField α}

/-! ## What is committed -/

/-- A step that stays open is not closed by a closing that succeeds. -/
theorem StaysOpen.unclosed {start : Coordinator shape α × σ} {calls : List (Call shape α)}
    (stays : StaysOpen flow start calls) (i : Nat) (found : calls[i]? = some .postprocess) :
    ¬ Call.Succeeds .postprocess flow (runAlone flow start (calls.take i)) := by
  intro succeeds
  have served : (Call.serve flow .postprocess).Ends (runAlone flow start (calls.take i))
      (fun _ after => after.1.protocol.phase.inStep = false) fun _ => True := by
    rw [Call.serve, ends_first]
    exact ends_postprocess_leaves.imp (fun _ _ outside => outside) fun _ _ => trivial
  have outside := serveAlone_of_succeeds succeeds served
  have inStep := stays (i + 1)
  rw [List.take_add_one, found, Option.toList_some, runAlone_append] at inStep
  rw [show runAlone flow (runAlone flow start (calls.take i)) [.postprocess] =
    serveAlone flow (runAlone flow start (calls.take i)) .postprocess from rfl, outside] at inStep
  cases inStep

/--
As long as a step stays open, its closing will commit these composite forces, as calls of callers
leave them until then.
-/
def WillCommit (flow : FlowTransfer α σ) (window : StepWindow α) (forces : CompositeField α)
    (state : Coordinator shape α × σ) : Prop :=
  ∀ later, StaysOpen flow state later →
    (∀ time change, .changeForces time change ∈ later → KeepsLayouts change) →
      (Call.serve flow .postprocess).Ends (runAlone flow state later)
        (fun _ after => (runAlone flow state later).1.CommittedWith
          (leftForces state.1.protocol.tolerance window forces later) after.1)
        fun after => after = runAlone flow state later

theorem Committable.willCommit {state : Coordinator shape α × σ}
    (committable : Committable window forces (overview standing state.1)) :
    WillCommit flow window forces state := by
  intro later stays keeps
  rw [Call.serve, ends_first]
  exact (overview_runAlone stays.unclosed keeps committable).1.ends_postprocess.imp
    (fun _ _ committed => committed) fun _ same => congrArg (·, _) same

/-! ## What is handed out -/

/-- The level at which forces are handed out at the new time of a step. -/
def newLevel (tolerance : α) (window : StepWindow α) : TimeLevel :=
  if StepWindow.timesEqual tolerance window.new window.current then .current else .new

theorem match?_current {tolerance : α}
    (own : StepWindow.timesEqual tolerance window.current window.current = true) :
    window.match? tolerance window.current [.current, .new] = some .current :=
  List.find?_cons_of_pos own

theorem match?_new {tolerance : α}
    (own : StepWindow.timesEqual tolerance window.new window.new = true) :
    window.match? tolerance window.new [.current, .new] = some (newLevel tolerance window) := by
  by_cases collide : StepWindow.timesEqual tolerance window.new window.current = true
  · simp only [StepWindow.match?, newLevel, TimeLevels.get, List.find?_cons, collide, if_true]
  · simp only [StepWindow.match?, newLevel, TimeLevels.get, List.find?_cons, collide, own,
      Bool.false_eq_true, if_false]

/-- The forces at a level of a step are handed out at a time that matches it. -/
theorem ends_changeForces_matched {time : α} {level : TimeLevel}
    (inStep : c.protocol.phase.inStep = true) (opened : c.protocol.window = some window)
    (matched : window.match? c.protocol.tolerance time [.current, .new] = some level)
    (allocated : c.forcesAt level = some forces) (change : CompositeField α → CompositeField α) :
    (changeForces time change).Ends c
      (fun handed after =>
        handed = some (change forces) ∧ after = c.withForcesAt level (change forces))
      fun _ => False := by
  have accepted : c.protocol.phase.after .getForce = .ok c.protocol.phase := by
    rw [Phase.after, if_pos inStep]
  have queried : c.protocol.queryForce time = .ok (some level) := by
    rw [StepProtocol.queryForce,
      StepProtocol.check_eq_ok_iff.mpr ⟨c.protocol.phase, accepted, opened⟩, ← matched]
    rfl
  rw [changeForces]
  simp only [ends_bind, ends_get, ends_checking, queried, allocated, ends_set, ends_pure]
  exact ⟨trivial, trivial⟩

/--
A caller's change at a time is made to composite forces that are handed out, and leaves a step
whose closing will commit certain forces.
-/
def HandsOut (flow : FlowTransfer α σ) (window : StepWindow α) (time : α)
    (change : CompositeField α → CompositeField α) (handed committed : CompositeField α)
    (state : Coordinator shape α × σ) : Prop :=
  (changeForces time change).Ends state.1 (fun value _ => value = some (change handed))
      (fun _ => False) ∧
    WillCommit flow window committed (serveAlone flow state (.changeForces time change))

/-- Changes at a time are made to the forces at the level that it matches. -/
theorem handsOut_of_match {state : Coordinator shape α × σ} {time : α} {level : TimeLevel}
    {handed committed : CompositeField α} {change : CompositeField α → CompositeField α}
    (inStep : state.1.protocol.phase.inStep = true)
    (opened : state.1.protocol.window = some window)
    (matched : window.match? state.1.protocol.tolerance time [.current, .new] = some level)
    (allocated : state.1.forcesAt level = some handed)
    (committable : Committable window committed
      (overview standing (state.1.withForcesAt level (change handed)))) :
    HandsOut flow window time change handed committed state := by
  have ends := ends_changeForces_matched inStep opened matched allocated change
  refine ⟨ends.imp (fun _ _ handed => handed.1) fun _ impossible => impossible, ?_⟩
  have served : serveAlone flow state (.changeForces time change) =
      (state.1.withForcesAt level (change handed), state.2) := by
    apply serveAlone_of_ends fun after => after = (state.1.withForcesAt level (change handed), _)
    rw [Call.serve, ends_first, ends_bind]
    apply ends.imp
    · exact fun _ _ handed => congrArg (·, state.2) handed.2
    · exact fun _ impossible => impossible.elim
  rw [served]
  exact Committable.willCommit committable

omit [Scalar α] in
/-- Changes of the forces of the current time do not show. -/
theorem overview_withCurrentForces (allocated : c.currentForces = some forces)
    (changed : CompositeField α) :
    overview standing (c.withForcesAt .current changed) = overview standing c := by
  simp only [overview, withForcesAt, allocated, Option.isSome_some]

/-! ## Steps -/

/-- Opening a step yields a step that can be committed, and so do calls that leave it open. -/
theorem exists_committable {before opened now : Coordinator shape α × σ} {current new : α}
    (opens : Call.Succeeds (.preprocess current new) flow before)
    (opened_eq : opened = serveAlone flow before (.preprocess current new))
    {within : List (Call shape α)} (stays : StaysOpen flow opened within)
    (keeps : ∀ time change, .changeForces time change ∈ within → KeepsLayouts change)
    (now_eq : now = runAlone flow opened within) :
    ∃ forces, Committable (.between current new) forces (overview standing now.1) := by
  have served : (Call.serve flow (.preprocess current new)).Ends before
      (fun _ after => ∃ forces, Committable (.between current new) forces (overview standing after.1))
      fun _ => True := by
    rw [Call.serve, ends_first]
    exact ends_preprocess_committable.imp (fun _ _ committable => ⟨_, committable⟩)
      fun _ _ => trivial
  rcases serveAlone_of_succeeds opens served with ⟨forces, committable⟩
  rw [← opened_eq] at committable
  rw [now_eq]
  exact ⟨_, (overview_runAlone stays.unclosed keeps committable).1⟩

/--
Once a step is open, there are two composite forces.  Changes of a caller at the current time are
made to the first one and are lost.  Changes at the new time are made to the second one, and the
closing of the step commits them, unless the tolerance takes the new time for the current one: then
they are made to the first one, and are lost as well.
-/
theorem forces_handed_out (flow : FlowTransfer α σ) {before opened now : Coordinator shape α × σ}
    {current new : α} (opens : Call.Succeeds (.preprocess current new) flow before)
    (opened_eq : opened = serveAlone flow before (.preprocess current new))
    {within : List (Call shape α)} (stays : StaysOpen flow opened within)
    (keeps : ∀ time change, .changeForces time change ∈ within → KeepsLayouts change)
    (now_eq : now = runAlone flow opened within)
    (current_eq : StepWindow.timesEqual now.1.protocol.tolerance current current = true)
    (new_eq : StepWindow.timesEqual now.1.protocol.tolerance new new = true) :
    let window := StepWindow.between current new
    ∃ first second, now.1.currentForces = some first ∧ now.1.newForces = some second ∧
      (∀ change, HandsOut flow window current change first second now) ∧
        ∀ change, KeepsLayouts change →
          if StepWindow.timesEqual now.1.protocol.tolerance new current then
            HandsOut flow window new change first second now
          else HandsOut flow window new change second (change second) now := by
  intro window
  rcases exists_committable opens opened_eq stays keeps now_eq with ⟨second, committable⟩
  rcases Option.isSome_iff_exists.mp committable.hasCurrentForces with ⟨first, allocated⟩
  have lost (change : CompositeField α → CompositeField α) :
      Committable window second (overview standing (now.1.withForcesAt .current (change first))) := by
    rw [overview_withCurrentForces allocated]
    exact committable
  refine ⟨first, second, allocated, committable.newForces, ?_, ?_⟩
  · intro change
    exact handsOut_of_match committable.inStep committable.window_eq (match?_current current_eq)
      allocated (lost change)
  · intro change keepsLayouts
    have matched : window.match? now.1.protocol.tolerance new [.current, .new] =
        some (newLevel now.1.protocol.tolerance window) := match?_new new_eq
    rw [newLevel] at matched
    split
    next collide =>
      rw [if_pos (show StepWindow.timesEqual now.1.protocol.tolerance window.new window.current = true
        from collide)] at matched
      exact handsOut_of_match committable.inStep committable.window_eq matched allocated
        (lost change)
    next distinct =>
      rw [if_neg (show ¬ StepWindow.timesEqual now.1.protocol.tolerance window.new window.current =
        true from distinct)] at matched
      exact handsOut_of_match committable.inStep committable.window_eq matched
        committable.newForces (committable.withForces (keepsLayouts second))

/-! ## Steps of a triangle -/

/-- Composite forces with one value in every owned entry. -/
def filledWith (value : ℚ) (composite : CompositeField ℚ) : CompositeField ℚ :=
  ⟨composite.parts.map (·.fill fun _ => value)⟩

theorem keepsLayouts_filledWith (value : ℚ) : KeepsLayouts (filledWith value) := by
  intro composite
  rw [filledWith, List.map_map]
  rfl

theorem triangle_forces_handed_out :
    let now := runAlone counting (serveAlone counting (ofTriangle, 0) (.preprocess 0 1))
      [.advance .forwardEuler 0 1]
    ∃ first second, now.1.currentForces = some first ∧ now.1.newForces = some second ∧
      HandsOut counting (.between 0 1) 0 (filledWith 4) first second now ∧
        HandsOut counting (.between 0 1) 1 (filledWith 4) second (filledWith 4 second) now := by
  intro now
  have opens : Call.Succeeds (.preprocess 0 1) counting (ofTriangle, 0) := by
    decide +kernel
  have stays : StaysOpen counting (serveAlone counting (ofTriangle, 0) (.preprocess 0 1))
      [.advance .forwardEuler 0 1] := by
    decide +kernel
  have keeps : ∀ time change, .changeForces time change ∈
      ([.advance .forwardEuler 0 1] : List (Call .triangle ℚ)) → KeepsLayouts change := by
    intro time change member
    cases List.mem_singleton.mp member
  rcases forces_handed_out counting opens rfl stays keeps rfl (by decide +kernel)
    (by decide +kernel) with ⟨first, second, current, new, lost, kept⟩
  have distinct : ¬ StepWindow.timesEqual now.1.protocol.tolerance 1 0 = true := by
    decide +kernel
  have committed := kept (filledWith 4) (keepsLayouts_filledWith 4)
  rw [if_neg distinct] at committed
  exact ⟨first, second, current, new, lost (filledWith 4), committed⟩

/-- The coordinator of the triangle with a tolerance that is small for times near one. -/
def ofTimedTriangle : Coordinator .triangle ℚ :=
  (register ⟨"triangle", 0, 1 / 10 ^ 12⟩ [triangle] Seat.alone).alone.toOption.get
    (by decide +kernel)

/-- Late times are not kept apart: forces of the new time are lost although the step is closed. -/
theorem late_forces_lost :
    let written := runAlone counting (ofTimedTriangle, 0)
      [.preprocess (10 ^ 13) (10 ^ 13 + 1), .changeForces (10 ^ 13 + 1) (filledWith 4),
        .advance .forwardEuler (10 ^ 13) (10 ^ 13 + 1),
        .advance .midpoint (10 ^ 13) (10 ^ 13 + 1)]
    Call.Succeeds .postprocess counting written ∧
      (serveAlone counting written .postprocess).1.structures.map (·.constraintForce.owned) ≠
        [#[4, 4, 4, 4, 4, 4]] := by
  decide +kernel

end ImmersedBody.Coordinator
