import ImmersedBody.Proofs.Coordinator.CompletedSteps
import ImmersedBody.Proofs.Coordinator.Failures
import ImmersedBody.Proofs.Coordinator.Safety

/-!
# Open steps

A run that ends in a step can be cut at the opening of this step: what comes after
the opening stays in the step.  This is an `OpenStep`, and `exists_opening` finds it.  It
takes for granted that no opening has failed for a structure without volume, since such
an opening can leave a step open that was never set up.

`Standing.serve_open` says which calls matter for a property of the structures as long
as a step stays open.
-/

namespace ImmersedBody.Coordinator

open ImmersedBody.Action RigidStructure NodalField

variable {α σ : Type} [Scalar α] {shape : Shape} {c : Coordinator shape α}
  {flow : FlowTransfer α σ} {state : σ} {call : Call shape α}

/-! ## Sound coordinators -/

omit [Scalar α] in
/-- A coordinator on the only rank with sound structures and a consistent protocol. -/
def Sound (c : Coordinator shape α) : Prop :=
  c.Holding c.halfForces c.protocol.forcePending c.protocol.phase.inStep

omit [Scalar α] in
theorem sound_of_holding {forces : List (Option (NodalField α))} {pending inStep : Bool}
    (holding : c.Holding forces pending inStep) : c.Sound where
  serial := holding.serial
  sound := holding.sound
  forces_eq := rfl
  consistent := holding.consistent
  pending_eq := rfl
  inStep_eq := rfl

/-- Every call leaves a sound coordinator sound, and only openings lead into a step. -/
theorem Sound.ends_serve (sound : c.Sound) (call : Call shape α) (flow : FlowTransfer α σ)
    (state : σ) :
    (call.serve flow).Ends (c, state)
      (fun _ after => after.1.Sound ∧ (call.Opens ∨ (c.protocol.phase.inStep = false →
        after.1.protocol.phase.inStep = false)))
      fun after => after.1.Sound ∧ (call.Opens ∨ (c.protocol.phase.inStep = false →
        after.1.protocol.phase.inStep = false)) := by
  have kept {forces : List (Option (NodalField α))} {pending inStep : Bool}
      {after : Coordinator shape α × σ} (holding : after.1.Holding forces pending inStep)
      (same : c.protocol.phase.inStep = false → inStep = false) :
      after.1.Sound ∧ (call.Opens ∨ (c.protocol.phase.inStep = false →
        after.1.protocol.phase.inStep = false)) :=
    ⟨sound_of_holding holding, Or.inr fun outside => holding.inStep_eq.trans (same outside)⟩
  by_cases plain : call.IsPlain
  · exact (ends_serve_of_isPlain plain sound state).imp (fun _ _ holding => kept holding id)
      fun _ holding => kept holding id
  · cases call with
    | preprocess current new =>
        rw [Call.serve, ends_first]
        apply (ends_preprocess sound).imp
        · rintro _ after ⟨-, initial, -, holding⟩
          exact ⟨sound_of_holding holding, Or.inl trivial⟩
        · rintro after (holding | ⟨-, -, holding⟩)
          · exact ⟨sound_of_holding holding, Or.inl trivial⟩
          · exact ⟨sound_of_holding holding, Or.inl trivial⟩
    | postprocess =>
        rw [Call.serve, ends_first]
        apply (ends_postprocess sound).imp
        · rintro _ after ⟨-, -, -, holding⟩
          exact kept holding fun _ => rfl
        · rintro after (holding | ⟨forces, -, -, holding⟩)
          · exact kept holding id
          · exact kept holding fun _ => rfl
    | setForce composite time factor =>
        rw [Call.serve, ends_first]
        apply (ends_setForce sound).imp
        · rintro _ after ⟨inside, -, -, -, holding⟩
          refine kept holding fun outside => ?_
          rw [inside] at outside
          cases outside
        · exact fun _ holding => kept holding id
    | computeForce part force =>
        rw [Call.serve, ends_first, ends_bind]
        apply (ends_computeForce sound).imp
        · rintro total after ⟨-, holding⟩
          exact kept holding id
        · exact fun _ holding => kept holding id
    | spread time =>
        have refused : (c, state).1.Sound ∧ ((Call.spread time : Call shape α).Opens ∨
            (c.protocol.phase.inStep = false → (c, state).1.protocol.phase.inStep = false)) :=
          ⟨sound, Or.inr id⟩
        refine ends_spread sound refused (fun _ after holding => kept holding id) ?_
        intro _ between level holding
        apply (holding.ends_forStructures _ state).imp
        · exact fun _ _ holding => kept holding id
        · exact fun _ holding => kept holding id
        · intro part body state member
          rw [ends_spreadFrom]
          cases body.step with
          | none =>
              exact holding.carries member
          | some step =>
              simp only
              split <;> exact holding.carries member
    | _ =>
        exact absurd trivial plain

theorem Sound.serve (sound : c.Sound) : (serveAlone flow (c, state) call).1.Sound :=
  serveAlone_of_ends (fun after => after.1.Sound)
    ((sound.ends_serve call flow state).imp (fun _ _ kept => kept.1) fun _ kept => kept.1)

/-- Only openings lead into a step. -/
theorem Sound.outside_of_serve (sound : c.Sound) (notOpening : ¬ call.Opens)
    (outside : c.protocol.phase.inStep = false) :
    (serveAlone flow (c, state) call).1.protocol.phase.inStep = false :=
  serveAlone_of_ends (fun after => after.1.protocol.phase.inStep = false)
    ((sound.ends_serve call flow state).imp
      (fun _ _ kept => kept.2.resolve_left notOpening outside)
      fun _ kept => kept.2.resolve_left notOpening outside)

theorem Sound.run {calls : List (Call shape α)} :
    ∀ {start : Coordinator shape α × σ}, start.1.Sound → (runAlone flow start calls).1.Sound := by
  induction calls with
  | nil =>
      exact fun sound => sound
  | cons call calls ih =>
      intro start sound
      have served : (serveAlone flow start call).1.Sound := sound.serve
      exact ih served

/-! ## Why openings and predictions stop -/

theorem yields_computeMass_of_sound {body : RigidStructure shape α} (sound : body.Sound)
    {objectName : String} {order part : Nat} :
    (do
      let body ← get
      let mass ← (Action.collective (body.massAt body.positions order)).attempt objectName
        (.computeMass part)
      set (body.withMass mass) : Action α (RigidStructure shape α) Unit).Yields body
      (fun _ _ => True) fun stop _ => stop.IsWeightless ∧ True := by
  simp only [yields_bind, yields_get, yields_attempt, yields_collective, yields_set,
    Stop.isWeightless_within, and_true]
  rcases massAt_cases ⟨sound.block, sound.owned⟩ sound.cells sound.positions order with
    ⟨mass, computed⟩ | ⟨stop, failed, weightless⟩
  · rw [computed]
    trivial
  · rw [failed]
    exact weightless

/-- The mass properties of sound structures fail only for a lack of volume. -/
theorem yields_updateMass_of_sound (sound : ∀ body ∈ c.structures, body.Sound) :
    (updateMass : Work shape α Unit).Yields c (fun _ after => after.protocol = c.protocol)
      fun stop _ => stop.IsWeightless := by
  have all : List.Forall₂ (fun _ body => body.Sound) (c.structures.map (·.layout))
      c.structures :=
    List.forall₂_map_left_iff.mpr (List.forall₂_same.mpr sound)
  rw [updateMass, yields_bind, yields_get]
  apply (yields_forEachStructure all
    fun part layout body _ fits => yields_computeMass_of_sound fits).imp
  · rintro _ _ ⟨structures, -, rfl⟩
    rfl
  · exact fun _ _ stopped => stopped.1

/-- Outside of a step only a structure without volume keeps the next step from being opened. -/
theorem Sound.yields_preprocess (sound : c.Sound) (outside : c.protocol.phase.inStep = false)
    {current new : α} :
    (preprocess current new : Work shape α Unit).Yields c (fun _ _ => True)
      fun stop _ => stop.IsWeightless := by
  have begun : c.protocol.beginStep current new =
      .ok ⟨.between current new, [.began (.between current new)],
        c.protocol.opened (.between current new)⟩ :=
    StepProtocol.beginStep_eq_ok_iff.mpr
      ⟨_, Phase.after_preprocess_eq_ok_iff.mpr ⟨outside, rfl⟩, rfl⟩
  rw [preprocess]
  simp only [yields_bind, yields_get, prepare]
  by_cases initialized : c.initialized = true
  · simp only [initialized, if_true, yields_pure, yields_attempting, yields_committing, begun,
      Bool.not_true, Bool.not_false]
    rw [yields_bind]
    apply (yields_updateMass_of_sound
      (c := { c with
        protocol := c.protocol.opened (.between current new), initialized := true })
      sound.sound).imp
    · intro _ weighed _
      simp only [yields_bind, yields_modify, yields_get, yields_collective, alone_assemble]
    · exact fun _ _ weightless => weightless
  · simp only [Bool.eq_false_of_not_eq_true initialized, Bool.false_eq_true, if_false, yields_bind,
      yields_get, yields_tell, yields_modify]
    apply (yields_updateMass_of_sound sound.sound).imp
    · intro _ weighed same
      rw [← same] at begun
      simp only [yields_attempting, yields_committing, begun, Bool.not_false, Bool.not_true,
        Bool.false_eq_true, if_false, yields_bind, yields_modify, yields_get, yields_collective,
        alone_assemble]
    · exact fun _ _ weightless => weightless

/-- Outside of a step an opening succeeds unless some structure has no volume. -/
theorem Sound.opens (sound : c.Sound) (outside : c.protocol.phase.inStep = false) {current new : α}
    (weighed : ¬ Call.StopsWeightless (.preprocess current new) flow (c, state)) :
    Call.Succeeds (.preprocess current new) flow (c, state) := by
  have served : (Call.serve flow (.preprocess current new)).Yields (c, state) (fun _ _ => True)
      fun stop _ => stop.IsWeightless := by
    rw [Call.serve, yields_first]
    exact sound.yields_preprocess outside
  rw [Yields] at served
  rw [Call.Succeeds]
  rcases result_eq : (Call.serve flow (.preprocess current new)).alone (c, state) with
    ⟨stop | _, after⟩
  · rw [result_eq] at served
    exact absurd ⟨stop, after, result_eq, served⟩ weighed
  · rfl

/-! ## From the opening on -/

/-- A coordinator in a step that was set up as a whole. -/
structure Underway (window : StepWindow α) (c : Coordinator shape α) : Prop where
  inStep : c.protocol.phase.inStep = true
  initialized : c.initialized = true
  window_eq : c.protocol.window = some window
  allocated : c.newForces.isSome = true

/-- Opening a step sets it up. -/
theorem underway_of_opens {current new : α}
    (opens : Call.Succeeds (.preprocess current new) flow (c, state)) :
    (serveAlone flow (c, state) (.preprocess current new)).1.Underway (.between current new) := by
  have served : (Call.serve flow (.preprocess current new)).Ends (c, state)
      (fun _ after => after.1.Underway (.between current new)) fun _ => True := by
    rw [Call.serve, ends_first]
    apply ends_preprocess_committable.imp _ fun _ _ => trivial
    intro _ after committable
    exact {
      inStep := committable.inStep
      initialized := committable.initialized
      window_eq := committable.window_eq
      allocated := Option.isSome_of_eq_some committable.newForces }
  exact serveAlone_of_succeeds opens served

omit [Scalar α] in
/-- Closing a step leaves it, unless it is refused before anything changes. -/
theorem ends_postprocess_leaves :
    (postprocess : Work shape α Unit).Ends c
      (fun _ after => after.protocol.phase.inStep = false)
      fun after => after = c ∨ after.protocol.phase.inStep = false := by
  rw [postprocess]
  simp only [ends_bind, ends_get, ends_attempting, ends_committing]
  cases ended : c.protocol.endStep with
  | error violation =>
      exact Or.inl trivial
  | ok outcome =>
      have outside : outcome.protocol.phase.inStep = false := (StepProtocol.of_endStep ended).2.2.2.2
      have commits (before : Coordinator shape α) (same : before.protocol = outcome.protocol)
          (objectName : String) (forces : Option (List (NodalField α))) :
          (forEachStructure (commit objectName forces)).Ends before
            (fun _ after => after.protocol.phase.inStep = false)
            fun after => after = c ∨ after.protocol.phase.inStep = false := by
        apply (fixes_protocol_forEachStructure _ before).imp
        · intro _ after kept
          rw [kept, same, outside]
        · intro after kept
          right
          rw [kept, same, outside]
      simp only [ends_modify]
      cases c.currentForces <;> cases c.newForces <;>
        simp only [ends_bind, ends_get, ends_modify, ends_collective, alone_release, ends_map,
          ends_pure] <;>
        apply commits <;> rfl

/-- A closing that leaves the step open changes nothing. -/
theorem serve_postprocess_open
    (stays : (serveAlone flow (c, state) .postprocess).1.protocol.phase.inStep = true) :
    serveAlone flow (c, state) .postprocess = (c, state) := by
  have left : (serveAlone flow (c, state) .postprocess) = (c, state) ∨
      (serveAlone flow (c, state) .postprocess).1.protocol.phase.inStep = false := by
    apply serveAlone_of_ends fun after => after = (c, state) ∨ after.1.protocol.phase.inStep = false
    rw [Call.serve, ends_first]
    apply ends_postprocess_leaves.imp
    · exact fun _ _ outside => Or.inr outside
    · exact fun _ stopped => stopped.imp_left (congrArg (·, state))
  rcases left with same | outside
  · exact same
  · rw [stays] at outside
    cases outside

/-- As long as a step stays open, it is the same step. -/
theorem sameStep_serve_open (serial : c.seat.size = 1) (inStep : c.protocol.phase.inStep = true)
    (stays : (serveAlone flow (c, state) call).1.protocol.phase.inStep = true) :
    c.protocol.SameStep (serveAlone flow (c, state) call).1.protocol := by
  have standing : c.Standing c.settings c.structures.length fun _ _ => True :=
    ⟨rfl, serial, rfl, fun _ _ _ => trivial⟩
  by_cases closing : call = .postprocess
  · subst closing
    rw [serve_postprocess_open stays]
    exact ⟨rfl, rfl, rfl⟩
  apply serveAlone_of_ends fun after => c.protocol.SameStep after.1.protocol
  by_cases opening : ∃ current new, call = .preprocess current new
  · rcases opening with ⟨current, new, rfl⟩
    rw [Call.serve, ends_first]
    apply (Standing.ends_preprocess (fun _ _ _ _ _ => trivial) standing).imp
    · rintro _ after ⟨-, outside, -⟩
      rw [inStep] at outside
      cases outside
    · rintro after ⟨-, unchanged, -⟩
      rw [unchanged inStep]
      exact ⟨rfl, rfl, rfl⟩
  · apply (standing.ends_serve_between ⟨fun _ _ _ _ _ _ _ _ => trivial, fun _ _ _ _ => trivial⟩
      (fun _ _ _ _ _ => trivial) (fun _ _ _ _ _ _ => ends_of_forall fun _ => trivial)
      (fun current new same => opening ⟨current, new, same⟩) closing flow state).imp
    · exact fun _ _ kept => (kept fun _ _ _ _ _ => trivial).2
    · exact fun _ kept => kept.2

/-- As long as the step stays open, what was set up is there. -/
theorem Underway.serve {window : StepWindow α} (underway : c.Underway window)
    (stays : (serveAlone flow (c, state) call).1.protocol.phase.inStep = true) :
    (serveAlone flow (c, state) call).1.Underway window := by
  by_cases closing : call = .postprocess
  · subst closing
    rw [serve_postprocess_open stays]
    exact underway
  · have blind : ShowsCurrent fun _ : RigidStructure shape α => () :=
      ⟨fun _ _ _ _ => rfl, fun _ _ => rfl, fun _ _ _ => rfl⟩
    rcases Option.isSome_iff_exists.mp underway.allocated with ⟨forces, allocated⟩
    have shown : overview (fun _ => ()) (serveAlone flow (c, state) call).1 =
        { overview (fun _ => ()) c with
          newForces := some (call.leftForces c.protocol.tolerance window forces) } :=
      serveAlone_of_ends (fun after => overview _ after.1 = _)
        (ends_serve_in_step blind closing underway.inStep underway.initialized
          underway.window_eq allocated (fun _ _ _ => rfl) flow state)
    exact {
      inStep := stays
      initialized := (congrArg Overview.initialized shown).trans underway.initialized
      window_eq := (congrArg Overview.window shown).trans underway.window_eq
      allocated := Option.isSome_of_eq_some (congrArg Overview.newForces shown) }

section

variable {settings : Settings α} {count : Nat} {fits : Nat → RigidStructure shape α → Prop}
  (weighs : c.initialized = false → ∀ part body mass, fits part body →
    (body.massAt body.positions settings.quadratureOrder).alone = .ok mass →
      fits part (body.withMass mass))

include weighs

/-- A preparation matters only if it is the first one. -/
theorem Standing.ends_prepare_again (standing : c.Standing settings count fits) :
    (prepare : Work shape α Unit).Ends c
      (fun _ after => after.Standing settings count fits ∧ after.protocol = c.protocol)
      fun after => after.Standing settings count fits := by
  by_cases initialized : c.initialized = true
  · rw [prepare, ends_bind, ends_get, if_pos initialized]
    exact ⟨standing, rfl⟩
  · apply (ends_prepare (weighs (Bool.eq_false_of_not_eq_true initialized)) standing).imp
    · exact fun _ _ kept => ⟨kept.1, kept.2.1⟩
    · exact fun _ kept => kept.1

/--
As long as a step stays open, a property of the structures that the solver's data does not matter
for can change only where the flow is sampled, where positions are advanced and where the velocity
of a free structure is updated.
-/
theorem Standing.serve_open (standing : c.Standing settings count fits)
    (inStep : c.protocol.phase.inStep = true) (ignores : IgnoresSolver fits)
    (stays : (serveAlone flow (c, state) call).1.protocol.phase.inStep = true)
    (samples : ∀ time, call = .interpolate time →
      (serveAlone flow (c, state) call).1.Standing settings count fits)
    (moves : ∀ rule current new, call = .advance rule current new →
      (serveAlone flow (c, state) call).1.Standing settings count fits)
    (sets : ∀ part dofs, call = .updateVelocity part dofs →
      (serveAlone flow (c, state) call).1.Standing settings count fits) :
    (serveAlone flow (c, state) call).1.Standing settings count fits := by
  have hidden {after : Coordinator shape α × σ}
      (same : outline (fun body part => fits part body) after.1 =
        outline (fun body part => fits part body) c) : after.1.Standing settings count fits :=
    standing.of_outline same
  cases call with
  | prepare =>
      apply serveAlone_of_ends fun after => after.1.Standing settings count fits
      rw [Call.serve, ends_first]
      exact (standing.ends_prepare_again weighs).imp (fun _ _ kept => kept.1) fun _ kept => kept
  | preprocess current new =>
      rcases StepProtocol.exists_refusal_of_beginStep inStep current new with ⟨violation, refused⟩
      apply serveAlone_of_ends fun after => after.1.Standing settings count fits
      rw [Call.serve, ends_first, preprocess]
      simp only [ends_bind, ends_get]
      apply (standing.ends_prepare_again weighs).imp _ fun _ kept => kept
      rintro _ prepared ⟨kept, same⟩
      rw [ends_attempting, ends_committing, same, refused]
      exact kept
  | postprocess =>
      rw [serve_postprocess_open stays]
      exact standing
  | setVelocity part velocity =>
      apply serveAlone_of_ends fun after => after.1.Standing settings count fits
      rw [Call.serve, ends_first, setVelocity, ends_bind, ends_checking]
      cases c.checkPart part with
      | error violation =>
          exact standing
      | ok _ =>
          simp only [ends_bind, ends_get, inStep, if_true, ends_refuse]
          exact standing
  | restore record =>
      apply serveAlone_of_ends fun after => after.1.Standing settings count fits
      rw [Call.serve, ends_first, restore, ends_bind, ends_get, if_pos inStep, ends_refuse]
      exact standing
  | interpolate time =>
      exact samples time rfl
  | advance rule current new =>
      exact moves rule current new rfl
  | updateVelocity part dofs =>
      exact sets part dofs rfl
  | changeForces time change =>
      apply serveAlone_of_ends fun after => after.1.Standing settings count fits
      have shown : Fixes (fun state : Coordinator shape α × σ =>
          outline (fun body part => fits part body) state.1)
          (Call.serve flow (.changeForces time change)) :=
        fixes_first (fixes_bind fixes_changeForces fun _ => fixes_pure ())
      exact (shown (c, state)).imp (fun _ _ same => hidden same) fun _ same => hidden same
  | _ =>
      apply serveAlone_of_ends fun after => after.1.Standing settings count fits
      refine (fixes_serve_of_exchanges ignores.hidesSolver ?_ flow (c, state)).imp ?_ ?_
      · trivial
      · exact fun _ _ same => hidden (outline_eq_of_overview_eq same)
      · exact fun _ same => hidden (outline_eq_of_overview_eq same)

end

/-! ## Runs -/

/-- A step is open before each call of a run and after the last one. -/
def StaysOpen (flow : FlowTransfer α σ) (start : Coordinator shape α × σ)
    (calls : List (Call shape α)) : Prop :=
  ∀ i, (runAlone flow start (calls.take i)).1.protocol.phase.inStep = true

/-- No call of a kind fails in a run because a structure has no volume. -/
def NeverWeightless (flow : FlowTransfer α σ) (kind : Call shape α → Prop)
    (start : Coordinator shape α × σ) (calls : List (Call shape α)) : Prop :=
  ∀ i call, calls[i]? = some call → kind call →
    ¬ call.StopsWeightless flow (runAlone flow start (calls.take i))

section

variable {start : Coordinator shape α × σ} {calls later : List (Call shape α)}
  {kind : Call shape α → Prop}

theorem staysOpen_iff : StaysOpen flow start calls ↔ ∀ i : Fin (calls.length + 1),
    (runAlone flow start (calls.take i)).1.protocol.phase.inStep = true := by
  constructor
  · exact fun stays i => stays i
  · intro each i
    by_cases inside : i ≤ calls.length
    · exact each ⟨i, Nat.lt_succ_of_le inside⟩
    · have whole := each ⟨calls.length, Nat.lt_succ_self _⟩
      rwa [List.take_length, ← List.take_of_length_le (Nat.le_of_not_le inside)] at whole

/-- Whether a step stays open can be found out by carrying out the calls. -/
instance (flow : FlowTransfer α σ) (start : Coordinator shape α × σ) (calls : List (Call shape α)) :
    Decidable (StaysOpen flow start calls) :=
  decidable_of_iff _ staysOpen_iff.symm

/-- In a run in which every call succeeds none of them fails. -/
theorem neverWeightless_of_succeeds
    (succeeds : ∀ i : Fin calls.length,
      calls[i].Succeeds flow (runAlone flow start (calls.take i))) :
    NeverWeightless flow kind start calls := by
  intro i call found _
  rcases List.getElem?_eq_some_iff.mp found with ⟨inside, rfl⟩
  exact (succeeds ⟨i, inside⟩).not_stopsWeightless

theorem StaysOpen.first (stays : StaysOpen flow start (call :: calls)) :
    (serveAlone flow start call).1.protocol.phase.inStep = true :=
  stays 1

theorem StaysOpen.tail (stays : StaysOpen flow start (call :: calls)) :
    StaysOpen flow (serveAlone flow start call) calls :=
  fun i => stays (i + 1)

theorem StaysOpen.concat (stays : StaysOpen flow start calls)
    (inStep : (runAlone flow start (calls ++ [call])).1.protocol.phase.inStep = true) :
    StaysOpen flow start (calls ++ [call]) := by
  intro i
  by_cases inside : i ≤ calls.length
  · rw [List.take_append_of_le_length inside]
    exact stays i
  · rw [List.take_of_length_le]
    · exact inStep
    · rw [List.length_append, List.length_singleton]
      omega

theorem StaysOpen.left (stays : StaysOpen flow start (calls ++ later)) :
    StaysOpen flow start calls := by
  intro i
  have before := stays (min i calls.length)
  rwa [List.take_append_of_le_length (Nat.min_le_right _ _), List.take_eq_take_min.symm] at before

theorem StaysOpen.right (stays : StaysOpen flow start (calls ++ later)) :
    StaysOpen flow (runAlone flow start calls) later := by
  intro i
  have whole := stays (calls.length + i)
  rwa [List.take_length_add_append, runAlone_append] at whole

theorem NeverWeightless.imp {narrower : Call shape α → Prop}
    (never : NeverWeightless flow kind start calls) (weaker : ∀ call, narrower call → kind call) :
    NeverWeightless flow narrower start calls :=
  fun i call found matters => never i call found (weaker call matters)

theorem NeverWeightless.left (never : NeverWeightless flow kind start (calls ++ later)) :
    NeverWeightless flow kind start calls := by
  intro i call found matters
  rcases List.getElem?_eq_some_iff.mp found with ⟨inside, -⟩
  have whole := never i call (by rw [List.getElem?_append_left inside, found]) matters
  rwa [List.take_append_of_le_length (Nat.le_of_lt inside)] at whole

theorem NeverWeightless.right (never : NeverWeightless flow kind start (calls ++ later)) :
    NeverWeightless flow kind (runAlone flow start calls) later := by
  intro i call found matters
  have whole := never (calls.length + i) call
    (by rw [List.getElem?_append_right (Nat.le_add_right _ _), Nat.add_sub_cancel_left, found])
    matters
  rwa [List.take_length_add_append, runAlone_append] at whole

theorem NeverWeightless.first (never : NeverWeightless flow kind start (call :: calls))
    (matters : kind call) : ¬ call.StopsWeightless flow start :=
  never 0 call rfl matters

theorem NeverWeightless.tail (never : NeverWeightless flow kind start (call :: calls)) :
    NeverWeightless flow kind (serveAlone flow start call) calls :=
  fun i call found => never (i + 1) call found

/-- The calls of a step that a run has opened and that has stayed open ever since. -/
structure OpenStep (flow : FlowTransfer α σ) (start : Coordinator shape α × σ)
    (calls : List (Call shape α)) extends StepCalls shape α where
  calls_eq : calls = before ++ .preprocess current new :: within
  opens : Call.Succeeds (.preprocess current new) flow (runAlone flow start before)
  stays : StaysOpen flow (toStepCalls.opened flow start) within

/--
A run from outside of a step that ends in a step has opened this step, which has stayed open ever
since.
-/
theorem exists_opening (sound : start.1.Sound) (outside : start.1.protocol.phase.inStep = false)
    (openings : ∀ call : Call shape α, call.Opens → kind call)
    (weighed : NeverWeightless flow kind start calls)
    (inStep : (runAlone flow start calls).1.protocol.phase.inStep = true) :
    Nonempty (OpenStep flow start calls) := by
  induction calls using List.reverseRecOn with
  | nil =>
      rw [runAlone_nil, outside] at inStep
      cases inStep
  | append_singleton calls call ih =>
      have last : runAlone flow start (calls ++ [call]) =
          serveAlone flow (runAlone flow start calls) call := runAlone_append start calls [call]
      by_cases earlier : (runAlone flow start calls).1.protocol.phase.inStep = true
      · rcases ih weighed.left earlier with ⟨step⟩
        have whole : calls ++ [call] =
            step.before ++ .preprocess step.current step.new :: (step.within ++ [call]) := by
          have longer := congrArg (· ++ [call]) step.calls_eq
          simp only [List.append_assoc, List.cons_append] at longer
          exact longer
        rw [whole, runAlone_append] at inStep
        exact ⟨{ step with
          within := step.within ++ [call]
          calls_eq := whole
          stays := step.stays.concat inStep }⟩
      · -- The last call leads into the step, so it is the opening.
        have outside' := Bool.eq_false_of_not_eq_true earlier
        have sound' : (runAlone flow start calls).1.Sound := sound.run
        rw [last] at inStep
        by_cases opening : call.Opens
        · cases call with
          | preprocess current new =>
              exact ⟨{
                before := calls
                current := current
                new := new
                within := []
                calls_eq := rfl
                opens := sound'.opens outside' (weighed.right.first (openings _ opening))
                stays := fun i => by
                  rw [List.take_nil]
                  exact inStep }⟩
          | _ =>
              exact opening.elim
        · have left : (serveAlone flow (runAlone flow start calls) call).1.protocol.phase.inStep =
              false := sound'.outside_of_serve opening outside'
          rw [left] at inStep
          cases inStep

namespace OpenStep

variable (step : OpenStep flow start calls)

/-- The window of the step. -/
def window : StepWindow α :=
  .between step.current step.new

theorem runAlone_calls :
    runAlone flow start calls = runAlone flow (step.opened flow start) step.within := by
  nth_rewrite 1 [step.calls_eq]
  exact runAlone_append start step.before _

/-- What is known of all calls is known of those after the opening. -/
theorem neverWeightless (never : NeverWeightless flow kind start calls) :
    NeverWeightless flow kind (step.opened flow start) step.within := by
  rw [step.calls_eq] at never
  exact never.right.tail

/-- What was set up at the opening is still there. -/
theorem underway : (runAlone flow start calls).1.Underway step.window := by
  have kept (within : List (Call shape α)) :
      ∀ {opened : Coordinator shape α × σ}, opened.1.Underway step.window →
        StaysOpen flow opened within → (runAlone flow opened within).1.Underway step.window := by
    induction within with
    | nil =>
        exact fun underway _ => underway
    | cons call within ih =>
        exact fun underway stays => ih (underway.serve stays.first) stays.tail
  rw [step.runAlone_calls]
  exact kept step.within (underway_of_opens step.opens) step.stays

end OpenStep

end

end ImmersedBody.Coordinator
