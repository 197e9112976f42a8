import ImmersedBody.Proofs.Coordinator.Lasting

/-!
# Mass properties during a step

The mass properties of a structure are kept for the current and for the half time.  In a
step they are never out of date: they are what would be computed from the positions at
these times.  This is `masses_up_to_date`.

The mass properties of the half time are computed anew after the positions have been
moved, so they are out of date if this computation fails.  It fails only for a structure
without volume (`Sound.yields_advance`).
-/

namespace ImmersedBody.Coordinator

open ImmersedBody.Action RigidStructure

variable {α σ : Type} [Scalar α] {shape : Shape} {c : Coordinator shape α}
  {flow : FlowTransfer α σ} {state : σ} {call : Call shape α}

/-! ## Why updates of the positions stop -/

omit [Scalar α] in
/-- Work on structures that are sound and in a step stops for the reasons that one of them has. -/
theorem yields_forEachStructure_of_sound {reason : Stop α → Prop}
    {action : Nat → Action α (RigidStructure shape α) Unit}
    (sound : ∀ body ∈ c.structures, body.Sound)
    (opened : ∀ body ∈ c.structures, body.step.isSome = true)
    (each : ∀ part body step, body.Sound → body.step = some step →
      (action part).Yields body (fun _ _ => True) fun stop _ => reason stop) :
    (forEachStructure action).Yields c (fun _ _ => True) fun stop _ => reason stop := by
  have all : List.Forall₂ (fun _ body => body.Sound ∧ body.step.isSome = true)
      (c.structures.map (·.layout)) c.structures :=
    List.forall₂_map_left_iff.mpr
      (List.forall₂_same.mpr fun body member => ⟨sound body member, opened body member⟩)
  have works (part : Nat) (layout : FieldLayout) (body : RigidStructure shape α)
      (_ : (c.structures.map (·.layout))[part]? = some layout)
      (fits : body.Sound ∧ body.step.isSome = true) :
      (action part).Yields body (fun _ _ => True) fun stop _ => reason stop ∧ True := by
    rcases Option.isSome_iff_exists.mp fits.2 with ⟨step, found⟩
    exact (each part body step fits.1 found).imp (fun _ _ _ => trivial) fun _ _ why => ⟨why, trivial⟩
  exact (yields_forEachStructure all works).imp (fun _ _ _ => trivial) fun _ _ stopped => stopped.1

/--
If all structures have fields of a step, an update of their positions is refused as a whole, or
it is a prediction and stops at a structure without volume.
-/
theorem Sound.yields_advance (sound : c.Sound)
    (opened : ∀ body ∈ c.structures, body.step.isSome = true) {rule : AdvanceRule}
    {current new : α} :
    (advance rule current new : Work shape α Unit).Yields c (fun _ _ => True)
      fun stop after => after = c ∨ rule = .forwardEuler ∧ stop.IsWeightless := by
  rw [advance]
  simp only [yields_bind, yields_get, yields_checking, yields_attempting, yields_committing]
  cases c.checkTimes rule current new with
  | error violation =>
      exact Or.inl trivial
  | ok _ =>
      cases c.protocol.advance rule with
      | error violation =>
          exact Or.inl trivial
      | ok outcome =>
          cases rule with
          | forwardEuler =>
              have predicts (part : Nat) (body : RigidStructure shape α) (step : StepFields α)
                  (fits : body.Sound) (found : body.step = some step) :
                  (predict c.seat c.name c.settings.quadratureOrder outcome.value part).Yields body
                    (fun _ _ => True) fun stop _ => stop.IsWeightless :=
                (yields_predict sound.serial found ⟨fits.block, fits.owned⟩ fits.positions
                  fits.cells (fits.step step found).halfPositions).imp (fun _ _ _ => trivial)
                  fun _ _ stopped => stopped.1
              simp only [yields_bind, yields_tell]
              have works := yields_forEachStructure_of_sound
                (c := { c with protocol := outcome.protocol }) sound.sound opened predicts
              exact works.imp (fun _ _ _ => trivial)
                fun _ _ weightless => Or.inr ⟨trivial, weightless⟩
          | midpoint =>
              have updates (part : Nat) (body : RigidStructure shape α) (step : StepFields α)
                  (fits : body.Sound) (found : body.step = some step) :
                  (update c.seat outcome.value part).Yields body (fun _ _ => True)
                    fun _ _ => False :=
                (yields_update sound.serial found ⟨fits.block, fits.owned⟩ fits.positions
                  (fits.step step found).newPositions).imp (fun _ _ _ => trivial)
                  fun _ _ impossible => impossible
              simp only [yields_bind, yields_tell]
              have works := yields_forEachStructure_of_sound
                (c := { c with protocol := outcome.protocol }) sound.sound opened updates
              exact works.imp (fun _ _ _ => trivial) fun _ _ impossible => impossible.elim
          | trapezoidal =>
              simp only [yields_tell]

/-- So it changes nothing if it fails, unless it fails for a structure without volume. -/
theorem Sound.serve_advance_fails (sound : c.Sound)
    (opened : ∀ body ∈ c.structures, body.step.isSome = true) {rule : AdvanceRule}
    {current new : α} (fails : ¬ Call.Succeeds (.advance rule current new) flow (c, state)) :
    serveAlone flow (c, state) (.advance rule current new) = (c, state) ∨
      rule = .forwardEuler ∧ Call.StopsWeightless (.advance rule current new) flow (c, state) := by
  have served : (Call.serve flow (.advance rule current new)).Yields (c, state) (fun _ _ => True)
      fun stop after => after = (c, state) ∨ rule = .forwardEuler ∧ stop.IsWeightless := by
    rw [Call.serve, yields_first]
    apply (sound.yields_advance opened).imp
    · exact fun _ _ _ => trivial
    · exact fun _ _ stopped => stopped.imp_left (congrArg (·, state))
  rw [Yields] at served
  rw [Call.Succeeds] at fails
  rcases result_eq : (Call.serve flow (.advance rule current new)).alone (c, state) with
    ⟨stop | _, after⟩
  · rw [result_eq] at served
    rw [serveAlone, result_eq]
    rcases served with same | ⟨predicting, weightless⟩
    · exact Or.inl same
    · exact Or.inr ⟨predicting, stop, after, result_eq, weightless⟩
  · rw [result_eq] at fails
    exact absurd rfl fails

/-! ## One structure -/

/-- A structure in a step whose mass properties are those of its positions. -/
def UpToDate (order : Nat) (body : RigidStructure shape α) : Prop :=
  ∃ step, body.step = some step ∧
    (body.massAt body.positions order).alone = .ok body.currentMass ∧
      (body.massAt step.halfPositions order).alone = .ok body.halfMass

variable {order part : Nat} {body : RigidStructure shape α}

theorem ignoresExchange_upToDate :
    IgnoresExchange fun _ (body : RigidStructure shape α) => UpToDate order body where
  step := by
    rintro _ body fields fields' opened half - ⟨step, found, current, computed⟩
    rw [opened, Option.some.injEq] at found
    subst found
    rw [← half] at computed
    exact ⟨fields', rfl, current, computed⟩
  flow := fun _ _ _ upToDate => upToDate

/-- The mass properties that are computed at the opening hold at the half time, too. -/
theorem upToDate_opened {mass : MassProperties α}
    (computed : (body.massAt body.positions order).alone = .ok mass) (window : StepWindow α) :
    UpToDate order ((body.withMass mass).opened window) :=
  ⟨_, rfl, computed, computed⟩

/-- An update of the positions that succeeds keeps the mass properties up to date. -/
theorem UpToDate.ends_advancing (upToDate : UpToDate c.settings.quadratureOrder body)
    (serial : c.seat.size = 1) (rule : AdvanceRule) (window : StepWindow α) :
    (advancing c rule window part).Ends body
      (fun _ after => UpToDate c.settings.quadratureOrder after) fun _ => True := by
  rcases upToDate with ⟨step, found, current, half⟩
  cases rule with
  | forwardEuler =>
      apply (ends_predict_frame serial).imp _ fun _ _ => trivial
      rintro _ _ ⟨step', halfPositions, halfMass, -, -, computed, rfl⟩
      exact ⟨_, rfl, current, computed⟩
  | midpoint =>
      apply (ends_update_frame serial).imp _ fun _ _ => trivial
      rintro _ _ ⟨step', newPositions, found', -, rfl⟩
      rw [found, Option.some.injEq] at found'
      subst found'
      exact ⟨_, rfl, current, half⟩
  | trapezoidal =>
      exact ⟨step, found, current, half⟩

/-! ## Calls within a step -/

section

variable {settings : Settings α} {count : Nat} {window : StepWindow α}

/-- An update of the positions leaves the mass properties up to date unless it fails for them. -/
theorem Standing.serve_advance_upToDate
    (standing : c.Standing settings count fun _ body => UpToDate settings.quadratureOrder body)
    (sound : c.Sound) {rule : AdvanceRule} {current new : α}
    (weighed : rule = .forwardEuler →
      ¬ Call.StopsWeightless (.advance rule current new) flow (c, state)) :
    (serveAlone flow (c, state) (.advance rule current new)).1.Standing settings count
      fun _ body => UpToDate settings.quadratureOrder body := by
  by_cases succeeds : Call.Succeeds (.advance rule current new) flow (c, state)
  · have moves (window : StepWindow α) (_ : c.protocol.window = some window) (part : Nat)
        (body : RigidStructure shape α) (upToDate : UpToDate settings.quadratureOrder body) :
        (advancing c rule window part).Ends body
          (fun _ after => UpToDate settings.quadratureOrder after) fun _ => True := by
      rw [← standing.settings_eq] at upToDate ⊢
      exact upToDate.ends_advancing standing.serial rule window
    exact (standing.advanced_of_succeeds moves succeeds).1
  · have opened : ∀ body ∈ c.structures, body.step.isSome = true := by
      intro body member
      rcases List.mem_iff_getElem?.mp member with ⟨part, found⟩
      rcases standing.each part body found with ⟨step, present, -⟩
      rw [present]
      rfl
    rcases sound.serve_advance_fails opened succeeds with same | ⟨predicting, weightless⟩
    · rw [same]
      exact standing
    · exact absurd weightless (weighed predicting)

/-- A call that leaves the step open leaves the mass properties up to date. -/
theorem Standing.serve_upToDate
    (standing : c.Standing settings count fun _ body => UpToDate settings.quadratureOrder body)
    (sound : c.Sound) (underway : c.Underway window)
    (weighed : call.Advances .forwardEuler → ¬ call.StopsWeightless flow (c, state))
    (stays : (serveAlone flow (c, state) call).1.protocol.phase.inStep = true) :
    (serveAlone flow (c, state) call).1.Standing settings count
      fun _ body => UpToDate settings.quadratureOrder body := by
  apply standing.serve_open _ underway.inStep ignoresExchange_upToDate.ignoresSolver stays
  · rintro time rfl
    apply serveAlone_of_ends fun after => after.1.Standing settings count _
    exact (standing.ends_interpolate ignoresExchange_upToDate).imp (fun _ _ kept => kept.1)
      fun _ kept => kept.1
  · rintro rule current new rfl
    exact standing.serve_advance_upToDate sound weighed
  · rintro number dofs rfl
    have sets : (Call.updateVelocity number dofs : Call shape α).Sets := trivial
    apply serveAlone_of_ends fun after => after.1.Standing settings count _
    apply (standing.ends_setting sets flow state).imp
    · exact fun _ _ kept => (kept fun _ _ _ _ upToDate => upToDate).1
    · exact fun _ kept => kept.1
  · intro first
    rw [underway.initialized] at first
    cases first

/-- As long as a step stays open, the mass properties stay up to date. -/
theorem Standing.run_upToDate {within : List (Call shape α)} :
    ∀ {start : Coordinator shape α × σ},
      start.1.Standing settings count
          (fun _ body => UpToDate settings.quadratureOrder body) →
        start.1.Sound → start.1.Underway window → StaysOpen flow start within →
          NeverWeightless flow (Call.Advances .forwardEuler) start within →
            (runAlone flow start within).1.Standing settings count
              fun _ body => UpToDate settings.quadratureOrder body := by
  induction within with
  | nil =>
      exact fun standing _ _ _ _ => standing
  | cons call within ih =>
      intro start standing sound underway stays weighed
      have served := standing.serve_upToDate sound underway weighed.first stays.first
      exact ih served sound.serve (underway.serve stays.first) stays.tail weighed.tail

end

/-! ## Runs -/

section

variable {settings : Settings α} {descriptions : List (StructureDescription shape α)} {seat : Seat}

/--
After every run that ends in a step, in which neither an opening nor a prediction failed for a
structure without volume, the mass properties of all structures at the current and at the half
time are those of their positions at these times.
-/
theorem masses_up_to_date (serial : seat.size = 1) {c : Coordinator shape α}
    (registered : (register settings descriptions seat).alone = .ok c) (flow : FlowTransfer α σ)
    (state : σ) {calls : List (Call shape α)}
    (weighed : NeverWeightless flow (fun call => call.Opens ∨ call.Advances .forwardEuler) (c, state)
      calls) {now : Coordinator shape α × σ} (now_eq : now = runAlone flow (c, state) calls)
    (inStep : now.1.protocol.phase.inStep = true) :
    now.1.structures.length = descriptions.length ∧
      ∀ body ∈ now.1.structures, UpToDate settings.quadratureOrder body := by
  have sound := sound_of_holding (holding_of_register serial registered)
  have outside := (standing_of_register serial registered).2
  rw [now_eq] at inStep ⊢
  rcases exists_opening sound outside (fun _ => Or.inl) weighed inStep with ⟨step⟩
  have before : (runAlone flow (c, state) step.before).1.Standing settings descriptions.length
      (HasMotion descriptions) := run_hasMotion serial registered
  have opened : (step.opened flow (c, state)).1.Standing settings descriptions.length
      fun _ body => UpToDate settings.quadratureOrder body := by
    apply (before.opened_of_opens (fun _ _ _ motion _ => motion) step.opens).1.imp
    rintro part _ ⟨_, ⟨body, mass, -, computed, rfl⟩, rfl⟩
    exact upToDate_opened computed _
  have soundBefore : (runAlone flow (c, state) step.before).1.Sound := sound.run
  have standing := opened.run_upToDate soundBefore.serve (underway_of_opens step.opens) step.stays
    (step.neverWeightless (weighed.imp fun _ => Or.inr))
  rw [step.runAlone_calls]
  refine ⟨standing.length_eq, ?_⟩
  intro body member
  rcases List.mem_iff_getElem?.mp member with ⟨part, found⟩
  exact standing.each part body found

/-- A step that moves the triangle and one in which its positions are predicted. -/
def predictions : List (Call .triangle ℚ) :=
  [.setVelocity 0 ⟨⟨1, 2, 0⟩, ⟨0, 0, 1⟩⟩, .prepare, .preprocess 0 1, .advance .forwardEuler 0 1,
    .advance .midpoint 0 1, .postprocess, .preprocess 1 2, .advance .forwardEuler 1 2]

theorem masses_up_to_date_predictions :
    let now := runAlone counting (ofTriangle, 0) predictions
    now.1.structures.length = 1 ∧ ∀ body ∈ now.1.structures, UpToDate 0 body := by
  have registered : (register ⟨"triangle", 0, 1 / 10⟩ [triangle] Seat.alone).alone =
      .ok ofTriangle :=
    eq_ok_get _
  have weighed : NeverWeightless counting (fun call => call.Opens ∨ call.Advances .forwardEuler)
      (ofTriangle, 0) predictions := by
    have succeeds : ∀ i : Fin predictions.length, predictions[i].Succeeds counting
        (runAlone counting (ofTriangle, 0) (predictions.take i)) := by
      decide +kernel
    exact neverWeightless_of_succeeds succeeds
  exact masses_up_to_date rfl registered counting 0 weighed rfl (by decide +kernel)

end

end ImmersedBody.Coordinator
