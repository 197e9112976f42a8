import ImmersedBody.Proofs.Coordinator.Calls
import ImmersedBody.Proofs.Rational

/-!
# The hand-off of the constraint force in a run

However a coordinator is called, every step that is opened and closed hands its
constraint forces off exactly once: for each time that forces are set, the flow
is called once for each structure, in order, and with the entries that were
stored last for this structure.

`OnCourse` is what every call preserves.  Either the step that is underway can be
told from the record, and all structures have their forces; or some structure
has none, so that neither can forces be set nor can the step be closed.
-/

namespace ImmersedBody.Coordinator

open ImmersedBody.Action ForceEvent

variable {α σ : Type} [Scalar α] {shape : Shape}

/-- All steps on record that have been opened and closed handed off their forces. -/
def Settled (count : Nat) (events : List (ForceEvent α)) : Prop :=
  ∀ before step after, events = before ++ .opened :: (step ++ .closed :: after) →
    .opened ∉ step → .closed ∉ step → HandedOff count step

/--
What every call preserves, unless the flow refuses a force.  While some structure has no force, no
forces can be set and no step can be closed.
-/
inductive OnCourse (count : Nat) : Coordinator shape α × σ × List (ForceEvent α) → Prop where
  | shut {c : Coordinator shape α} {state : σ} {events : List (ForceEvent α)}
      {forces : List (Option (NodalField α))} {inStep : Bool} (settled : Settled count events)
      (holding : c.Holding forces false inStep) (length_eq : forces.length = count)
      (shut : none ∈ forces ∨ forces = [] ∧ inStep = false) : OnCourse count (c, state, events)
  | busy {c : Coordinator shape α} {state : σ} {before step : List (ForceEvent α)}
      {forces : List (NodalField α)} {pending : Bool}
      (settled : Settled count (before ++ .opened :: step))
      (holding : c.Holding (forces.map some) pending true) (length_eq : forces.length = count)
      (underway : Underway forces pending step) :
      OnCourse count (c, state, before ++ .opened :: step)

theorem OnCourse.settled {count : Nat} {state : Coordinator shape α × σ × List (ForceEvent α)}
    (onCourse : OnCourse count state) : Settled count state.2.2 := by
  cases onCourse with
  | shut settled holding length_eq shut =>
      exact settled
  | busy settled holding length_eq underway =>
      exact settled

/-- The flow has refused a force. -/
def Refused (events : List (ForceEvent α)) : Prop :=
  ∃ part force, .spread part force false ∈ events

/-! ## The record -/

section

variable {count : Nat} {events : List (ForceEvent α)}

/-- Only the closing of a step adds a step that has been closed. -/
theorem Settled.append (settled : Settled count events) (added : List (ForceEvent α))
    (unclosed : .closed ∉ added) :
    Settled count (events ++ added) := by
  intro before step after split
  rw [← List.cons_append, ← List.append_assoc] at split
  rcases split_of_append split with ⟨between, -, earlier⟩ | ⟨between, -, rfl⟩
  · rw [List.append_assoc, List.cons_append] at earlier
    exact settled before step between earlier
  · exact absurd (List.mem_append_right between List.mem_cons_self) unclosed

/-- The step that is closed is the one that was underway. -/
theorem Settled.close (settled : Settled count events) {before step : List (ForceEvent α)}
    (opened : events = before ++ .opened :: step) (fresh : .opened ∉ step)
    (handedOff : HandedOff count step) : Settled count (events ++ [.closed]) := by
  intro before' step' after split fresh' unclosed'
  rw [← List.cons_append, ← List.append_assoc] at split
  rcases split_of_concat split with ⟨between, -, earlier⟩ | ⟨same, -, -⟩
  · rw [List.append_assoc, List.cons_append] at earlier
    exact settled before' step' between earlier fresh' unclosed'
  · rw [eq_of_last (same.trans opened) fresh' fresh]
    exact handedOff

end

/-! ## Calls -/

section

variable {count : Nat} {flow : FlowTransfer α σ} {c : Coordinator shape α} {state : σ}
  {events : List (ForceEvent α)}

/-- As long as nothing is added to the record, only the forces matter. -/
theorem OnCourse.frame (onCourse : OnCourse count (c, state, events)) :
    ∃ forces pending inStep, c.Holding forces pending inStep ∧
      ∀ (c' : Coordinator shape α) (state' : σ), c'.Holding forces pending inStep →
        OnCourse count (c', state', events) := by
  cases onCourse with
  | @shut _ _ _ forces inStep settled holding length_eq shut =>
      refine ⟨forces, false, inStep, holding, ?_⟩
      intro c' state' holding'
      exact .shut settled holding' length_eq shut
  | @busy _ _ before step forces pending settled holding length_eq underway =>
      refine ⟨forces.map some, pending, true, holding, ?_⟩
      intro c' state' holding'
      exact .busy settled holding' length_eq underway

theorem ends_plain {call : Call shape α} (plain : call.IsPlain)
    (onCourse : OnCourse count (c, state, events)) :
    (call.serve flow.recorded).Ends (c, state, events) (fun _ after => OnCourse count after)
      fun after => OnCourse count after := by
  have recorded : (call.serve flow.recorded).Ends (c, state, events)
      (fun _ after => after.2.2 = events) fun after => after.2.2 = events := by
    have keeps : Keeps (fun state => state.2 = events) (call.serve flow.recorded) := by
      apply keeps_serve
      · have samples : flow.recorded.SamplesKeep fun state => state.2 = events :=
          @FlowTransfer.samplesKeep_recorded _ _ flow fun events' => events' = events
        exact samples
      · rintro time rfl
        cases plain
    exact keeps c (state, events) rfl
  rcases onCourse.frame with ⟨forces, pending, inStep, holding, again⟩
  have kept (after : Coordinator shape α × σ × List (ForceEvent α))
      (both : after.1.Holding forces pending inStep ∧ after.2.2 = events) :
      OnCourse count after := by
    rcases after with ⟨c', state', events'⟩
    rcases both with ⟨holding', rfl⟩
    exact again c' state' holding'
  exact ((ends_serve_of_isPlain plain holding _).and recorded).imp (fun _ => kept) kept

omit [Scalar α] in
/-- Neither can forces be set nor can a step be closed without the forces of all structures. -/
theorem not_all_isSome {forces : List (Option (NodalField α))} {inStep : Bool}
    (shut : none ∈ forces ∨ forces = [] ∧ inStep = false) (inside : inStep = true)
    (all : ∀ force ∈ forces, force.isSome = true) : False := by
  rcases shut with missing | ⟨-, outside⟩
  · exact absurd (all none missing) (by simp)
  · rw [inside] at outside
    cases outside

theorem ends_preprocess_recorded {current new : α} (onCourse : OnCourse count (c, state, events)) :
    ((Call.preprocess current new).serve flow.recorded).Ends (c, state, events)
      (fun _ after => OnCourse count (after.1, after.2.1, after.2.2 ++ [.opened]))
      fun after => OnCourse count after := by
  rw [Call.serve, ends_first]
  cases onCourse with
  | shut settled holding length_eq shut =>
      apply (ends_preprocess holding).imp
      · rintro _ after ⟨-, initial, same, holding'⟩
        exact .busy (settled.append _ (by simp)) holding' (same.trans length_eq) (.opened initial)
      · rintro after (holding' | ⟨-, nonempty, holding'⟩)
        · exact .shut settled holding' length_eq shut
        · apply OnCourse.shut settled holding' length_eq
          rcases shut with missing | ⟨empty, -⟩
          · exact Or.inl missing
          · exact absurd empty nonempty
  | busy settled holding length_eq underway =>
      apply (ends_preprocess holding).imp
      · rintro _ after ⟨outside, -⟩
        cases outside
      · rintro after (holding' | ⟨outside, -⟩)
        · exact .busy settled holding' length_eq underway
        · cases outside

theorem ends_postprocess_recorded (onCourse : OnCourse count (c, state, events)) :
    ((Call.postprocess : Call shape α).serve flow.recorded).Ends (c, state, events)
      (fun _ after => OnCourse count (after.1, after.2.1, after.2.2 ++ [.closed]))
      fun after => OnCourse count after := by
  rw [Call.serve, ends_first]
  cases onCourse with
  | shut settled holding length_eq shut =>
      apply (ends_postprocess holding).imp
      · rintro _ after ⟨inside, -, all, -⟩
        exact (not_all_isSome shut inside all).elim
      · rintro after (holding' | ⟨forces', missing, same, holding'⟩)
        · exact .shut settled holding' length_eq shut
        · exact .shut settled holding' (same.trans length_eq) (Or.inl missing)
  | @busy _ _ before step forces pending settled holding length_eq underway =>
      apply (ends_postprocess holding).imp
      · rintro _ after ⟨-, rfl, -, holding'⟩
        have handedOff : HandedOff count step := length_eq ▸ underway.handedOff
        apply OnCourse.shut (settled.close rfl underway.not_mem.1 handedOff) holding'
        · rw [List.length_map, List.length_map, length_eq]
        · cases forces with
          | nil =>
              exact Or.inr ⟨rfl, rfl⟩
          | cons force forces =>
              exact Or.inl List.mem_cons_self
      · rintro after (holding' | ⟨forces', missing, same, holding'⟩)
        · exact .busy settled holding' length_eq underway
        · rw [List.length_map] at same
          exact .shut settled holding' (same.trans length_eq) (Or.inl missing)

theorem ends_setForce_recorded {composite : CompositeField α} {time factor : α}
    (onCourse : OnCourse count (c, state, events)) :
    ((Call.setForce composite time factor).serve flow.recorded).Ends (c, state, events)
      (fun _ after => OnCourse count
        (after.1, after.2.1, after.2.2 ++ [.set composite.parts factor]))
      fun after => OnCourse count after := by
  rw [Call.serve, ends_first]
  cases onCourse with
  | shut settled holding length_eq shut =>
      apply (ends_setForce holding).imp
      · rintro _ after ⟨inside, -, all, -⟩
        exact (not_all_isSome shut inside all).elim
      · exact fun after holding' => .shut settled holding' length_eq shut
  | busy settled holding length_eq underway =>
      apply (ends_setForce holding).imp
      · rintro _ after ⟨-, rfl, -, same, holding'⟩
        rw [List.length_map] at same
        have stored : after.Holding ((composite.parts.map (·.stored factor)).map some) true true := by
          rw [List.map_map]
          exact holding'
        have settled' := settled.append [.set composite.parts factor] (by simp)
        simp only [List.append_assoc, List.cons_append] at settled' ⊢
        apply OnCourse.busy settled' stored _ (underway.set composite.parts factor same)
        rw [List.length_map, same, length_eq]
      · exact fun after holding' => .busy settled holding' length_eq underway

omit [Scalar α] in
/-- A structure without force stays without one when another force is replaced. -/
theorem none_mem_set {forces : List (Option (NodalField α))} {part : Nat}
    {current : NodalField α} {force : Option (NodalField α)} (missing : none ∈ forces)
    (found : forces[part]? = some (some current)) : none ∈ forces.set part force := by
  rcases List.getElem?_of_mem missing with ⟨i, here⟩
  have different : part ≠ i := by
    rintro rfl
    rw [found] at here
    cases here
  refine List.mem_of_getElem? (i := i) ?_
  rw [List.getElem?_set_ne different, here]

theorem ends_computeForce_recorded {part : Nat} {force : NodalField α}
    (onCourse : OnCourse count (c, state, events)) :
    ((Call.computeForce part force).serve flow.recorded).Ends (c, state, events)
      (fun _ after => OnCourse count (after.1, after.2.1, after.2.2 ++ [.replaced part force]))
      fun after => OnCourse count after := by
  rw [Call.serve, ends_first]
  simp only [ends_bind, ends_pure]
  cases onCourse with
  | shut settled holding length_eq shut =>
      apply (ends_computeForce holding).imp
      · rintro _ after ⟨⟨current, found⟩, holding'⟩
        apply OnCourse.shut (settled.append _ (by simp)) holding'
        · rw [List.length_set, length_eq]
        · rcases shut with missing | ⟨rfl, -⟩
          · exact Or.inl (none_mem_set missing found)
          · cases found
      · exact fun after holding' => .shut settled holding' length_eq shut
  | @busy _ _ before step forces pending settled holding length_eq underway =>
      apply (ends_computeForce holding).imp
      · rintro _ after ⟨⟨current, found⟩, holding'⟩
        have settled' := settled.append [.replaced part force] (by simp)
        simp only [List.append_assoc, List.cons_append] at settled' ⊢
        rw [← List.map_set] at holding'
        have inside : part < (forces.map some).length := (List.getElem?_eq_some_iff.mp found).1
        rw [List.length_map] at inside
        apply OnCourse.busy settled' holding' _ (underway.replaced inside force)
        rw [List.length_set, length_eq]
      · exact fun after holding' => .busy settled holding' length_eq underway

/-- A pending force is spread as a whole, or the flow refuses a part of it. -/
theorem ends_spread_onCourse {time : α} (onCourse : OnCourse count (c, state, events)) :
    ((Call.spread time).serve flow.recorded).Ends (c, state, events)
      (fun _ after => OnCourse count after)
      fun after => Refused after.2.2 ∨ OnCourse count after := by
  rw [Call.serve]
  cases onCourse with
  | shut settled holding length_eq shut =>
      apply ends_spread holding
      · exact Or.inr (.shut settled holding length_eq shut)
      · exact fun _ after holding' => .shut settled holding' length_eq shut
      · intro impossible
        cases impossible
  | @busy _ _ before step forces pending settled holding length_eq underway =>
      apply (ends_spread_recorded holding).imp
      · rintro _ ⟨after, state', events'⟩ ⟨holding', recorded⟩
        cases pending with
        | false =>
            rw [if_neg Bool.false_ne_true] at recorded
            subst recorded
            exact .busy settled holding' length_eq underway
        | true =>
            rw [if_pos rfl] at recorded
            subst recorded
            have unclosed : ForceEvent.closed ∉ handovers 0 forces := by
              intro member
              rcases spread_of_mem_handovers member with ⟨_, _, impossible⟩
              cases impossible
            have settled' := settled.append (handovers 0 forces) unclosed
            simp only [List.append_assoc, List.cons_append] at settled' ⊢
            exact .busy settled' holding' length_eq underway.spread
      · rintro ⟨after, state', events'⟩ (⟨holding', recorded⟩ | refused)
        · subst recorded
          exact Or.inr (.busy settled holding' length_eq underway)
        · exact Or.inl refused

end

/-! ## Runs -/

section

variable {count : Nat} {flow : FlowTransfer α σ} {call : Call shape α}
  {state : Coordinator shape α × σ × List (ForceEvent α)}

/-- What is known of how a call ends is known of the state that is left. -/
theorem serveRecorded_of_ends
    (property : Coordinator shape α × σ × List (ForceEvent α) → Prop)
    (ends : (call.serve flow.recorded).Ends state
      (fun _ after => property (after.1, after.2.1, after.2.2 ++ call.events)) property) :
    property (serveRecorded flow state call) := by
  rw [Ends] at ends
  rw [serveRecorded]
  generalize (call.serve flow.recorded).alone state = result at *
  rcases result with ⟨_ | _, after⟩ <;> exact ends

/-- What is on record stays there. -/
theorem Refused.serve (refused : Refused state.2.2) (call : Call shape α) :
    Refused (serveRecorded flow state call).2.2 := by
  rcases refused with ⟨part, force, member⟩
  refine ⟨part, force, ?_⟩
  have keeps : Keeps (fun state => .spread part force false ∈ state.2)
      (call.serve flow.recorded) := by
    apply keeps_serve
    · have samples : flow.recorded.SamplesKeep fun state => .spread part force false ∈ state.2 :=
        @FlowTransfer.samplesKeep_recorded _ _ flow fun events => .spread part force false ∈ events
      exact samples
    · exact fun _ _ => FlowTransfer.spreadsKeep_recorded
  apply serveRecorded_of_ends fun after => .spread part force false ∈ after.2.2
  apply (keeps state.1 state.2 member).imp
  · exact fun _ after kept => List.mem_append_left _ kept
  · exact fun _ kept => kept

theorem OnCourse.serve (onCourse : OnCourse count state) (call : Call shape α) :
    Refused (serveRecorded flow state call).2.2 ∨
      OnCourse count (serveRecorded flow state call) := by
  rcases state with ⟨c, state, events⟩
  apply serveRecorded_of_ends fun after => Refused after.2.2 ∨ OnCourse count after
  by_cases plain : call.IsPlain
  · rw [call.events_of_isPlain plain]
    simp only [List.append_nil]
    exact (ends_plain plain onCourse).imp (fun _ _ => Or.inr) fun _ => Or.inr
  · cases call with
    | preprocess current new =>
        exact (ends_preprocess_recorded onCourse).imp (fun _ _ => Or.inr) fun _ => Or.inr
    | postprocess =>
        exact (ends_postprocess_recorded onCourse).imp (fun _ _ => Or.inr) fun _ => Or.inr
    | setForce composite time factor =>
        exact (ends_setForce_recorded onCourse).imp (fun _ _ => Or.inr) fun _ => Or.inr
    | computeForce part force =>
        exact (ends_computeForce_recorded onCourse).imp (fun _ _ => Or.inr) fun _ => Or.inr
    | spread time =>
        simp only [Call.events, List.append_nil]
        exact (ends_spread_onCourse onCourse).imp (fun _ _ => Or.inr) fun _ stopped => stopped
    | _ =>
        exact absurd trivial plain

theorem onCourse_run (flow : FlowTransfer α σ) (calls : List (Call shape α))
    (start : Refused state.2.2 ∨ OnCourse count state) :
    Refused (runRecorded flow state calls).2.2 ∨ OnCourse count (runRecorded flow state calls) := by
  induction calls generalizing state with
  | nil =>
      exact start
  | cons call calls ih =>
      apply ih
      rcases start with refused | onCourse
      · exact Or.inl (refused.serve call)
      · exact onCourse.serve call

end

theorem onCourse_of_register {settings : Settings α}
    {descriptions : List (StructureDescription shape α)} {seat : Seat} (serial : seat.size = 1)
    {c : Coordinator shape α} (registered : (register settings descriptions seat).alone = .ok c)
    (state : σ) : OnCourse c.count (c, state, []) := by
  have settled : Settled c.count ([] : List (ForceEvent α)) := by
    intro before step after split
    exact absurd split (by simp)
  apply OnCourse.shut settled (holding_of_register serial registered)
  · rw [List.length_map, count]
  · cases c.structures with
    | nil =>
        exact Or.inr ⟨rfl, rfl⟩
    | cons body bodies =>
        exact Or.inl List.mem_cons_self

/-! ## The run of a triangle -/

/-- A single triangle that moves freely. -/
def triangle : StructureDescription .triangle ℚ where
  mesh := {
    vertices := #[⟨0, 0, 0⟩, ⟨1, 0, 0⟩, ⟨0, 1, 0⟩]
    cells := #[#v[0, 1, 2]]
    inBounds := by decide }
  motion := .free
  nodalVelocity := .rigid .two
  initialVelocity := ⟨⟨0, 0, 0⟩, ⟨0, 0, 0⟩⟩

/-- The coordinator of the triangle. -/
def ofTriangle : Coordinator .triangle ℚ :=
  (register ⟨"triangle", 0, 1 / 10⟩ [triangle] Seat.alone).alone.toOption.get (by decide +kernel)

/-- A flow that accepts every force and counts them. -/
def counting : FlowTransfer ℚ Nat where
  interpolate _ _ _ state := .ok () state
  spread _ _ _ _ calls := .ok () (calls + 1)

/-- The force on the triangle with one value in every entry. -/
def uniformForce (value : ℚ) : NodalField ℚ :=
  .constant ⟨6, ⟨0, 6⟩, #[], 2, by decide, by decide, by decide, by simp, by simp⟩ value

/-- Two rounds of forces, with calls in between that are refused or have nothing to do. -/
def twoRounds : List (Call .triangle ℚ) :=
  [.setForce ⟨[uniformForce 1]⟩ 0 2, .preprocess 0 1, .setForce ⟨[uniformForce 1]⟩ 0 2,
    .setForce ⟨[uniformForce 5]⟩ 0 2, .spread 0, .spread 0, .setForce ⟨[uniformForce 3]⟩ 1 2,
    .computeForce 0 (uniformForce 4), .postprocess, .spread 1, .postprocess]

/-- The step of the two rounds. -/
def twoRoundsStep : List (ForceEvent ℚ) :=
  [.set [uniformForce 1] 2, .spread 0 (uniformForce 2) true, .set [uniformForce 3] 2,
    .replaced 0 (uniformForce 4), .spread 0 (uniformForce 4) true]

/-! ## The main result -/

/--
Each step of a run that has been opened and closed handed off every constraint force exactly once,
and with the right entries, if the flow accepted the forces that it was called with.
-/
theorem every_step_hands_off {settings : Settings α}
    {descriptions : List (StructureDescription shape α)} {seat : Seat} (serial : seat.size = 1)
    {c : Coordinator shape α} (registered : (register settings descriptions seat).alone = .ok c)
    (flow : FlowTransfer α σ) (state : σ) (calls : List (Call shape α))
    {events : List (ForceEvent α)}
    (recorded : (runRecorded flow (c, state, []) calls).2.2 = events)
    (accepted : ∀ part force, .spread part force false ∉ events)
    {before step after : List (ForceEvent α)}
    (split : events = before ++ .opened :: (step ++ .closed :: after))
    (opened : .opened ∉ step) (closed : .closed ∉ step) :
    HandedOff c.count step := by
  have start := onCourse_of_register serial registered state
  rcases onCourse_run flow calls (Or.inr start) with refused | onCourse
  · rcases refused with ⟨part, force, member⟩
    rw [recorded] at member
    exact absurd member (accepted part force)
  · have settled : Settled c.count events := by
      rw [← recorded]
      exact onCourse.settled
    exact settled before step after split opened closed

theorem two_rounds_hand_off : HandedOff ofTriangle.count twoRoundsStep := by
  have registered : (register ⟨"triangle", 0, 1 / 10⟩ [triangle] Seat.alone).alone =
      .ok ofTriangle :=
    eq_ok_get _
  have recorded : (runRecorded counting (ofTriangle, 0, []) twoRounds).2.2 =
      [] ++ .opened :: (twoRoundsStep ++ .closed :: []) := by
    decide +kernel
  apply every_step_hands_off rfl registered counting 0 twoRounds recorded _ rfl
  · simp [twoRoundsStep]
  · simp [twoRoundsStep]
  · simp [twoRoundsStep]

end ImmersedBody.Coordinator
