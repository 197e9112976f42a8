import ImmersedBody.Proofs.TimeStep.History

/-!
# Phase and window at the boundaries of steps

The window of a step is there exactly while the phase lies within the step, and
outside of a step only the opening of one is accepted, as long as steps are closed
by the call that is made for it.  Any operation can be recorded, though, and the
closing of a step, when it is recorded, changes the phase and leaves the window
behind.  It stays behind until a step is opened again.

The main result says this for all calls: both properties hold exactly if the
last call that led into a step or out of it was not such a record.
-/

namespace ImmersedBody.StepProtocol

variable {α : Type}

/-- The call leads into a step or out of it. -/
def Call.crosses : Call α → Bool
  | .beginStep _ _ | .endStep | .record .preprocess | .record .postprocess => true
  | _ => false

/-- The last call that led into a step or out of it did no more than record the closing. -/
def LeftBehind (events : List (Entry α)) : Prop :=
  (events.filter (·.call.crosses)).getLast?.map Entry.call = some (.record .postprocess)

/-- Outside of a step, only the opening of one is accepted. -/
def ShutOutside [Scalar α] (protocol : StepProtocol α) : Prop :=
  protocol.phase.inStep = false →
    (∀ call, (∀ current new, call ≠ .beginStep current new) →
      ∃ violation, protocol.perform call = .error violation) ∧
    protocol.consumeForce = .error (.notInStep .spreadForce)

/-! ## The last call across a boundary -/

section

variable {events : List (Entry α)} {entry : Entry α}

theorem leftBehind_concat_of_crosses (crosses : entry.call.crosses = true) :
    LeftBehind (events ++ [entry]) ↔ entry.call = .record .postprocess := by
  simp [LeftBehind, List.filter_append, crosses]

theorem leftBehind_concat_of_stays (stays : entry.call.crosses = false) :
    LeftBehind (events ++ [entry]) ↔ LeftBehind events := by
  simp [LeftBehind, List.filter_append, stays]

end

/-! ## One call -/

/-- What every call preserves: which of phase and window can disagree, and when they do. -/
structure KeepsWindow (events : List (Entry α)) (protocol : StepProtocol α) : Prop where
  /-- Within a step there is a window. -/
  opened : protocol.phase.inStep = true → protocol.window.isSome = true
  /-- Outside of a step there is none, unless it was left behind. -/
  leftBehind_iff : LeftBehind events ↔
    protocol.phase.inStep = false ∧ protocol.window.isSome = true

theorem keepsWindow_initial (tolerance : α) : KeepsWindow [] (initial tolerance) := by
  constructor <;> simp [initial, LeftBehind, Phase.inStep]

/-- A call that does not lead across a boundary stays on its side. -/
theorem Effect.stays {before after : StepProtocol α} {call : Call α} {answer : Answer α}
    (effect : Effect before call answer after) (stays : call.crosses = false) :
    after.window = before.window ∧ after.phase.inStep = before.phase.inStep := by
  cases effect with
  | begun outside | ended opened =>
      cases stays
  | requested opened | interpolationSkipped opened | spreadingSkipped opened
    | inspected inspects opened =>
      exact ⟨rfl, rfl⟩
  | interpolated opened inStep =>
      refine ⟨rfl, ?_⟩
      dsimp only
      split
      · exact inStep.symm
      · rfl
  | produced opened inStep | updated opened inStep =>
      exact ⟨rfl, inStep.symm⟩
  | spread opened started =>
      exact ⟨rfl, (Phase.inStep_of_started started).symm⟩
  | predicted opened predicting =>
      exact ⟨rfl, (Phase.inStep_of_predicting predicting).symm⟩
  | @recorded operation next window opened accepted =>
      refine ⟨rfl, ?_⟩
      have notOpening : operation ≠ .preprocess := by
        rintro rfl
        cases stays
      have notClosing : operation ≠ .postprocess := by
        rintro rfl
        cases stays
      rcases Phase.inStep_of_after accepted notOpening notClosing with ⟨inside, within⟩
      exact within.trans inside.symm

/-- A call that leads across a boundary leaves a window behind only if it records the closing. -/
theorem Effect.crosses {before after : StepProtocol α} {call : Call α} {answer : Answer α}
    (effect : Effect before call answer after) (crosses : call.crosses = true) :
    (after.phase.inStep = true → after.window.isSome = true) ∧
      (call = .record .postprocess ↔ after.phase.inStep = false ∧ after.window.isSome = true) := by
  cases effect with
  | begun outside | ended opened =>
      simp [Phase.inStep]
  | inspected inspects =>
      cases call <;> cases inspects <;> cases crosses
  | @recorded operation next window opened accepted =>
      cases operation with
      | preprocess =>
          rcases Phase.after_preprocess_eq_ok_iff.mp accepted with ⟨-, rfl⟩
          simp [Phase.inStep, opened]
      | postprocess =>
          rcases Phase.after_postprocess_eq_ok_iff.mp accepted with ⟨-, rfl⟩
          simp [Phase.inStep, opened]
      | _ =>
          cases crosses
  | requested | interpolated | interpolationSkipped | produced | spread | spreadingSkipped
    | predicted | updated =>
      cases crosses

theorem KeepsWindow.call {events : List (Entry α)} {before after : StepProtocol α} {call : Call α}
    {answer : Answer α} (kept : KeepsWindow events before)
    (effect : Effect before call answer after) :
    KeepsWindow (events ++ [⟨before.phase, call, answer⟩]) after := by
  cases crosses : call.crosses with
  | true =>
      rcases effect.crosses crosses with ⟨opened, left⟩
      exact ⟨opened, (leftBehind_concat_of_crosses crosses).trans left⟩
  | false =>
      rcases effect.stays crosses with ⟨sameWindow, sameSide⟩
      constructor
      · rw [sameWindow, sameSide]
        exact kept.opened
      · rw [leftBehind_concat_of_stays crosses, sameWindow, sameSide]
        exact kept.leftBehind_iff

/-! ## Whole runs -/

section

variable [Scalar α] {protocol : StepProtocol α}

theorem Leads.keepsWindow {tolerance : α} {past : List (Entry α)}
    (leads : Leads (initial tolerance) past protocol) : KeepsWindow past protocol := by
  induction leads with
  | nothing =>
      exact keepsWindow_initial tolerance
  | call leads performed ih =>
      exact ih.call (effect_of_perform performed)

omit [Scalar α] in
/-- Without a window, a force can neither be spread nor be skipped. -/
theorem consumeForce_of_none (closed : protocol.window = none)
    (outside : protocol.phase.inStep = false) :
    protocol.consumeForce = .error (.notInStep .spreadForce) := by
  have refused : protocol.accept .spreadForce = .error (.notInStep .spreadForce) := by
    simp [accept, Phase.transition, Phase.after, outside, Violation.ofRefusal, bind, Except.bind]
  unfold consumeForce
  rw [refused, closed]
  cases protocol.forcePending <;> rfl

/-- Without a window, only the opening of a step is accepted. -/
theorem shutOutside_of_none (closed : protocol.window = none) : protocol.ShutOutside := by
  intro outside
  constructor
  · intro call later
    cases performed : protocol.perform call with
    | error violation =>
        exact ⟨violation, rfl⟩
    | ok outcome =>
        rcases (effect_of_perform performed).opens_or_opened with ⟨current, new, opens⟩ | opened
        · exact absurd opens (later current new)
        · rw [closed] at opened
          cases opened
  · exact consumeForce_of_none closed outside

/-- Where a window was left behind, more is accepted than the opening of a step. -/
theorem not_shutOutside (outside : protocol.phase.inStep = false)
    (opened : protocol.window.isSome = true) : ¬ protocol.ShutOutside := by
  intro shut
  rcases Option.isSome_iff_exists.mp opened with ⟨window, found⟩
  have accepted := Phase.after_preprocess_eq_ok_iff.mpr ⟨outside, rfl⟩
  have checked := check_eq_ok_iff.mpr ⟨_, accepted, found⟩
  rcases (shut outside).1 (.check .preprocess) nofun with ⟨violation, refused⟩
  rw [perform, checked] at refused
  cases refused

/--
Whatever is called, there is a window within every step; outside of the steps there is none, and
only the opening of a step is accepted, exactly if none was left behind.
-/
theorem window_matches_phase_iff (tolerance : α) (calls : List (Call α)) :
    let protocol := (initial tolerance).run calls
    let events := (initial tolerance).history calls
    (protocol.phase.inStep = true → protocol.window.isSome = true) ∧
      ((protocol.window.isSome = true ↔ protocol.phase.inStep = true) ↔ ¬ LeftBehind events) ∧
      (protocol.ShutOutside ↔ ¬ LeftBehind events) := by
  intro protocol events
  have kept : KeepsWindow events protocol := (leads_history (initial tolerance) calls).keepsWindow
  refine ⟨kept.opened, ?_, ?_⟩
  · rw [kept.leftBehind_iff]
    have opened := kept.opened
    generalize protocol.phase.inStep = inStep at opened ⊢
    cases inStep <;> simp [opened]
  · rw [kept.leftBehind_iff]
    constructor
    · rintro shut ⟨outside, opened⟩
      exact not_shutOutside outside opened shut
    · intro closes outside
      have closed : protocol.window = none := by
        simpa [outside] using closes
      exact shutOutside_of_none closed outside

end

/-- The recorded closing of a step leaves a window behind, and skipping a force is accepted. -/
theorem recorded_closing_leaves_window :
    let calls : List (Call Float) := [.beginStep 0 1, .advance .forwardEuler, .record .postprocess]
    let protocol := (initial 1e-12).run calls
    ¬ (protocol.window.isSome = true ↔ protocol.phase.inStep = true) ∧
      protocol.phase.inStep = false ∧
      protocol.consumeForce = .ok ⟨false, [.skippedSpreading], protocol⟩ := by
  intro calls protocol
  refine ⟨?_, rfl, rfl⟩
  intro same
  exact absurd (same.mp rfl) Bool.false_ne_true

end ImmersedBody.StepProtocol
