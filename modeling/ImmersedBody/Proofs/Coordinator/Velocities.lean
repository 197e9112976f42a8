import ImmersedBody.Proofs.Coordinator.Lasting

/-!
# Rigid velocities during a step

From the opening of a step to its closing, the rigid velocities of a structure at the
three times of the step are known: a prescribed motion has been evaluated at them, and
a free structure keeps its current velocity and takes the last new velocity that it
was given in the step.  This is `velocities_follow_motions`, which also says that the
closing makes the new velocity the current one.
-/

namespace ImmersedBody

open ImmersedBody.Action

variable {α σ : Type} [Scalar α] {shape : Shape}

/--
The rigid velocities in a step of a structure with a motion.  A free structure had the velocity
`prior` before the step and was given a new one in the step, or none.
-/
def BodyMotion.levels (window : StepWindow α) (prior : RigidVelocity α)
    (given : Option (RigidVelocity α)) : BodyMotion α → TimeLevels (RigidVelocity α)
  | .prescribed velocity => ⟨velocity window.current, velocity window.half, velocity window.new⟩
  | .free =>
    match given with
    | none => .uniform prior
    | some new => ⟨prior, prior.average new, new⟩

namespace Coordinator

open RigidStructure

/-- The velocity that a call gives to a structure in a step, if it succeeds. -/
def Call.given (flow : FlowTransfer α σ) (part : Nat) (state : Coordinator shape α × σ) :
    Call shape α → Option (RigidVelocity α)
  | updateVelocity number dofs =>
    if number = part ∧ Call.Succeeds (.updateVelocity number dofs) flow state then
      some (.ofDofs shape.dim dofs)
    else none
  | _ => none

/-- The velocity that the calls of a run have given to a structure last, if any of them has. -/
def lastGiven (flow : FlowTransfer α σ) (part : Nat) :
    Coordinator shape α × σ → List (Call shape α) → Option (RigidVelocity α)
  | _, [] => none
  | state, call :: calls =>
    (lastGiven flow part (serveAlone flow state call) calls).or (call.given flow part state)

/-! ## One structure -/

variable {window : StepWindow α} {priors : List (RigidVelocity α)}
  {given : Nat → Option (RigidVelocity α)} {part : Nat} {body : RigidStructure shape α}

/-- The rigid velocities of a structure are those of its motion. -/
def HasLevels (window : StepWindow α) (priors : List (RigidVelocity α))
    (given : Nat → Option (RigidVelocity α)) (part : Nat) (body : RigidStructure shape α) : Prop :=
  ∃ prior, priors[part]? = some prior ∧ body.velocity = body.motion.levels window prior (given part)

theorem ignoresExchange_hasLevels :
    IgnoresExchange (HasLevels window priors given : Nat → RigidStructure shape α → Prop) where
  step := fun _ _ _ _ _ _ _ levels => levels
  flow := fun _ _ _ levels => levels

/-- The opening of a step evaluates a motion. -/
theorem hasLevels_opened (found : priors[part]? = some body.velocity.current) :
    HasLevels window priors (fun _ => none) part (body.opened window) := by
  refine ⟨body.velocity.current, found, ?_⟩
  rw [RigidStructure.opened]
  cases body.motion <;> rfl

/-- A free structure takes a new velocity and keeps the current one. -/
theorem HasLevels.give (levels : HasLevels window priors given part body)
    (free : body.motion = .free) {given' : Nat → Option (RigidVelocity α)} {new : RigidVelocity α}
    (given_eq : given' part = some new) :
    HasLevels window priors given' part
      { body with velocity := ⟨body.velocity.current, body.velocity.current.average new, new⟩ } := by
  rcases levels with ⟨prior, found, velocity⟩
  have current : body.velocity.current = prior := by
    rw [velocity, free]
    cases given part <;> rfl
  refine ⟨prior, found, ?_⟩
  rw [current, free, given_eq]
  rfl

/-! ## Calls within a step -/

section

variable {settings : Settings α} {count : Nat} {c : Coordinator shape α} {state : σ}
  {flow : FlowTransfer α σ} {call : Call shape α}

omit [Scalar α] in
/-- Only the velocity of a free structure can be updated. -/
theorem free_of_checkFree {number : Nat} (checked : c.checkFree number = .ok ())
    (found : c.structures[number]? = some body) : body.motion = .free := by
  rw [checkFree, found] at checked
  cases motion : body.motion with
  | free =>
      rfl
  | prescribed velocity =>
      simp only [motion, BodyMotion.isPrescribed, if_true, reduceCtorEq] at checked

/-- An update of a velocity succeeds for a free structure only, or changes nothing. -/
theorem Standing.serve_updateVelocity {number : Nat} {dofs : Vector α shape.dim.rigidSize}
    (standing : c.Standing settings count (HasLevels window priors given)) :
    (serveAlone flow (c, state) (.updateVelocity number dofs)).1.Standing settings count
      (HasLevels window priors fun part =>
        ((Call.updateVelocity number dofs).given flow part (c, state)).or (given part)) := by
  have served : (Call.serve flow (.updateVelocity number dofs)).Ends (c, state)
      (fun _ after => c.checkFree number = .ok () ∧
        after.1 = { c with structures := c.structures.modify number fun body =>
          { body with velocity := ⟨body.velocity.current,
              body.velocity.current.average (.ofDofs shape.dim dofs), .ofDofs shape.dim dofs⟩ } })
      fun after => after.1 = c := by
    rw [Call.serve, ends_first, updateVelocity, ends_bind, ends_checking]
    cases checked : (do
        c.checkPart number
        if c.protocol.window.isNone then .error (.notInStep .setVelocity) else .ok ()
        c.checkFree number) with
    | error violation =>
        rfl
    | ok _ =>
        rcases bind_eq_ok_iff.mp checked with ⟨_, -, later⟩
        simp only at later
        split at later
        · cases later
        · exact ⟨later, rfl⟩
  by_cases succeeds : Call.Succeeds (.updateVelocity number dofs) flow (c, state)
  · rcases serveAlone_of_succeeds succeeds served with ⟨checked, after_eq⟩
    rw [after_eq]
    have free : c.Standing settings count fun part body =>
        (part = number → body.motion = .free) ∧ HasLevels window priors given part body := {
      standing with
      each := fun part body found =>
        ⟨fun same => free_of_checkFree checked (same ▸ found), standing.each part body found⟩ }
    apply free.changeOne
    · rintro body ⟨free, levels⟩
      apply levels.give (free rfl)
      simp only [Call.given, true_and, if_pos succeeds, Option.some_or]
    · rintro part body other ⟨-, levels⟩
      have elsewhere : ¬ (number = part ∧
          Call.Succeeds (.updateVelocity number dofs) flow (c, state)) :=
        fun same => other same.1.symm
      simp only [HasLevels, Call.given, if_neg elsewhere, Option.none_or]
      exact levels
  · have after_eq := serveAlone_of_stops succeeds served
    have refused (part : Nat) : ¬ (number = part ∧
        Call.Succeeds (.updateVelocity number dofs) flow (c, state)) :=
      fun same => succeeds same.2
    simp only [after_eq, Call.given, if_neg (refused _), Option.none_or]
    exact standing

/-- A call that leaves the step open gives velocities to structures or leaves all velocities. -/
theorem Standing.serve_hasLevels
    (standing : c.Standing settings count (HasLevels window priors given))
    (inStep : c.protocol.phase.inStep = true)
    (stays : (serveAlone flow (c, state) call).1.protocol.phase.inStep = true) :
    (serveAlone flow (c, state) call).1.Standing settings count
      (HasLevels window priors fun part =>
        (call.given flow part (c, state)).or (given part)) := by
  by_cases updating : ∃ number dofs, call = .updateVelocity number dofs
  · rcases updating with ⟨number, dofs, rfl⟩
    exact standing.serve_updateVelocity
  · have ungiven (part : Nat) : call.given flow part (c, state) = none := by
      cases call with
      | updateVelocity number dofs =>
          exact absurd ⟨number, dofs, rfl⟩ updating
      | _ =>
          rfl
    simp only [ungiven, Option.none_or]
    apply standing.serve_open (fun _ _ _ _ levels _ => levels) inStep
      ignoresExchange_hasLevels.ignoresSolver stays
    · rintro time rfl
      apply serveAlone_of_ends fun after => after.1.Standing settings count _
      exact (standing.ends_interpolate ignoresExchange_hasLevels).imp (fun _ _ kept => kept.1)
        fun _ kept => kept.1
    · rintro rule current new rfl
      have moves (window' : StepWindow α) (_ : c.protocol.window = some window') (part : Nat)
          (body : RigidStructure shape α) (levels : HasLevels window priors given part body) :
          (advancing c rule window' part).Ends body
            (fun _ after => HasLevels window priors given part after)
            fun after => HasLevels window priors given part after := by
        apply (ends_advancing_frame standing.serial rule window').imp
        · rintro _ _ ⟨step, halfMass, rfl⟩
          exact levels
        · rintro _ ⟨step, halfMass, rfl⟩
          exact levels
      apply serveAlone_of_ends fun after => after.1.Standing settings count _
      rw [Call.serve, ends_first]
      exact (standing.ends_advance moves fun _ _ levels => levels).imp (fun _ _ kept => kept.1)
        fun _ kept => kept.1
    · rintro number dofs rfl
      exact absurd ⟨number, dofs, rfl⟩ updating

/-- As long as a step stays open, the velocities are those of the motions. -/
theorem Standing.run_hasLevels {within : List (Call shape α)} :
    ∀ {start : Coordinator shape α × σ} {given : Nat → Option (RigidVelocity α)},
      start.1.Standing settings count (HasLevels window priors given) →
        StaysOpen flow start within →
          (runAlone flow start within).1.Standing settings count
            (HasLevels window priors fun part =>
              (lastGiven flow part start within).or (given part)) := by
  induction within with
  | nil =>
      exact fun standing _ => standing
  | cons call within ih =>
      intro start given standing stays
      have served := standing.serve_hasLevels (stays 0) stays.first
      have later := ih served stays.tail
      simp only [← Option.or_assoc] at later
      exact later

/-- Opening a step evaluates all motions. -/
theorem Standing.hasLevels_of_opens {known : Nat → RigidStructure shape α → Prop}
    (standing : c.Standing settings count known) {current new : α}
    (opens : Call.Succeeds (.preprocess current new) flow (c, state)) :
    (serveAlone flow (c, state) (.preprocess current new)).1.Standing settings count
      (HasLevels (.between current new) (c.structures.map (·.velocity.current)) fun _ => none) := by
  have current_eq : c.Standing settings count fun part body =>
      (c.structures.map (·.velocity.current))[part]? = some body.velocity.current := {
    standing with
    each := fun part body found => by rw [List.getElem?_map, found, Option.map_some] }
  apply (current_eq.opened_of_opens (fun _ _ _ found _ => found) opens).1.imp
  rintro part _ ⟨weighed, ⟨body, mass, found, -, rfl⟩, rfl⟩
  have same : (c.structures.map (·.velocity.current))[part]? =
      some (body.withMass mass).velocity.current := found
  exact hasLevels_opened same

/-- Closing a step makes the new velocity the current one. -/
theorem Standing.current_of_closes {known : Nat → RigidStructure shape α → Prop}
    (standing : c.Standing settings count known)
    (closes : Call.Succeeds .postprocess flow (c, state)) (inside : part < count) :
    ∃ before after, c.structures[part]? = some before ∧
      (serveAlone flow (c, state) .postprocess).1.structures[part]? = some after ∧
        after.velocity.current = before.velocity.new := by
  have own : c.Standing settings count fun part body => c.structures[part]? = some body := {
    standing with
    each := fun _ _ found => found }
  have served : (Call.serve flow .postprocess).Ends (c, state)
      (fun _ after => after.1.Standing settings count fun part after =>
        ∃ before, c.structures[part]? = some before ∧
          after.velocity.current = before.velocity.new)
      fun _ => True := by
    have commits (objectName : String) (forces : Option (List (NodalField α))) (part : Nat)
        (before : RigidStructure shape α) (found : c.structures[part]? = some before) :
        (commit objectName forces part).Ends before
          (fun _ after => ∃ before, c.structures[part]? = some before ∧
            after.velocity.current = before.velocity.new)
          fun _ => True := by
      cases opened : before.step with
      | none =>
          exact (ends_commit_closed opened).imp (fun _ _ impossible => impossible.elim)
            fun _ _ => trivial
      | some step =>
          apply (ends_commit_opened opened).imp
          · rintro _ _ ⟨constraintForce, rfl⟩
            exact ⟨before, found, rfl⟩
          · exact fun _ _ => trivial
    rw [Call.serve, ends_first]
    exact (own.ends_postprocess commits).imp (fun _ _ committed => committed) fun _ _ => trivial
  rcases (serveAlone_of_succeeds closes served).exists_structure inside with
    ⟨after, found, before, was, velocity⟩
  exact ⟨before, after, was, found, velocity⟩

end

/-! ## Runs -/

section

variable {settings : Settings α} {descriptions : List (StructureDescription shape α)} {seat : Seat}

/--
After every run that ends in a step, in which no opening failed for a structure without volume,
the rigid velocities of each structure at the three times of the step are those of its motion: the
values of a prescribed motion at these times, or, for a free structure, what it had before the step
and what an update in this step has given to it last.  The closing of the step makes the new
velocity the current one.
-/
theorem velocities_follow_motions (serial : seat.size = 1) {c : Coordinator shape α}
    (registered : (register settings descriptions seat).alone = .ok c) (flow : FlowTransfer α σ)
    (state : σ) {calls : List (Call shape α)}
    (weighed : NeverWeightless flow Call.Opens (c, state) calls) {now : Coordinator shape α × σ}
    (now_eq : now = runAlone flow (c, state) calls) (inStep : now.1.protocol.phase.inStep = true) :
    ∃ step : OpenStep flow (c, state) calls, now.1.protocol.window = some step.window ∧
      ∀ (part : Nat) (description : StructureDescription shape α),
        descriptions[part]? = some description → ∃ prior body : RigidStructure shape α,
          (runAlone flow (c, state) step.before).1.structures[part]? = some prior ∧
            now.1.structures[part]? = some body ∧
              body.velocity = description.motion.levels step.window prior.velocity.current
                (lastGiven flow part (step.opened flow (c, state)) step.within) ∧
                (Call.Succeeds .postprocess flow now → ∃ after : RigidStructure shape α,
                  (serveAlone flow now .postprocess).1.structures[part]? = some after ∧
                    after.velocity.current = body.velocity.new) := by
  have sound := sound_of_holding (holding_of_register serial registered)
  have outside := (standing_of_register serial registered).2
  rw [now_eq] at inStep
  rcases exists_opening sound outside (fun _ opening => opening) weighed inStep with ⟨step⟩
  have before : (runAlone flow (c, state) step.before).1.Standing settings descriptions.length
      (HasMotion descriptions) := run_hasMotion serial registered
  have ended : now.1.Standing settings descriptions.length (HasMotion descriptions) := by
    rw [now_eq]
    exact run_hasMotion serial registered
  have levels : now.1.Standing settings descriptions.length (HasLevels step.window
      ((runAlone flow (c, state) step.before).1.structures.map (·.velocity.current)) fun part =>
        lastGiven flow part (step.opened flow (c, state)) step.within) := by
    have opened := (before.hasLevels_of_opens step.opens).run_hasLevels step.stays
    simp only [Option.or_none] at opened
    rw [now_eq, step.runAlone_calls]
    exact opened
  refine ⟨step, now_eq ▸ step.underway.window_eq, ?_⟩
  intro part description found
  have inside : part < descriptions.length := (List.getElem?_eq_some_iff.mp found).1
  rcases before.exists_structure inside with ⟨prior, was, -⟩
  rcases levels.exists_structure inside with ⟨body, is, velocity, known, levels⟩
  have motion := ended.each part body is
  rw [HasMotion, found, Option.map_some, Option.some.injEq] at motion
  rw [List.getElem?_map, was, Option.map_some, Option.some.injEq] at known
  rw [← known, ← motion] at levels
  refine ⟨prior, body, was, is, levels, ?_⟩
  intro closes
  rcases ended.current_of_closes closes inside with ⟨body', after, is', left, current⟩
  rw [is, Option.some.injEq] at is'
  exact ⟨after, left, is' ▸ current⟩

/-- A triangle whose velocity grows with time. -/
def drivenTriangle : StructureDescription .triangle ℚ :=
  { triangle with motion := .prescribed fun time => ⟨⟨time, 0, 0⟩, ⟨0, 0, 0⟩⟩ }

/-- The coordinator of a free triangle and of one that is driven. -/
def ofTwoTriangles : Coordinator .triangle ℚ :=
  (register ⟨"triangles", 0, 1 / 10⟩ [triangle, drivenTriangle] Seat.alone).alone.toOption.get
    (by decide +kernel)

/-- A completed step and an open one, in which velocities are updated; some updates are refused. -/
def updates : List (Call .triangle ℚ) :=
  [.setVelocity 0 ⟨⟨1, 2, 0⟩, ⟨0, 0, 0⟩⟩, .preprocess 0 1, .advance .forwardEuler 0 1,
    .updateVelocity 0 #v[3, 4, 0], .advance .midpoint 0 1, .postprocess, .preprocess 1 3,
    .updateVelocity 0 #v[0, 0, 1], .updateVelocity 1 #v[0, 0, 1], .updateVelocity 0 #v[5, 6, 0]]

theorem velocities_follow_motions_updates :
    ∃ step : OpenStep counting (ofTwoTriangles, 0) updates,
      (runAlone counting (ofTwoTriangles, 0) updates).1.protocol.window = some step.window ∧
        ∃ prior body : RigidStructure .triangle ℚ,
          (runAlone counting (ofTwoTriangles, 0) step.before).1.structures[0]? = some prior ∧
            (runAlone counting (ofTwoTriangles, 0) updates).1.structures[0]? = some body ∧
              body.velocity = BodyMotion.levels step.window prior.velocity.current
                (lastGiven counting 0 (step.opened counting (ofTwoTriangles, 0)) step.within)
                .free := by
  have registered : (register ⟨"triangles", 0, 1 / 10⟩ [triangle, drivenTriangle]
      Seat.alone).alone = .ok ofTwoTriangles :=
    eq_ok_get _
  have weighed : NeverWeightless counting Call.Opens (ofTwoTriangles, 0) updates := by
    intro i call found opens
    apply Call.Succeeds.not_stopsWeightless
    match i with
    | 1 | 6 =>
        cases found
        decide +kernel
    | 0 | 2 | 3 | 4 | 5 | 7 | 8 | 9 =>
        cases found
        exact opens.elim
    | i + 10 =>
        cases found
  rcases velocities_follow_motions rfl registered counting 0 weighed rfl (by decide +kernel) with
    ⟨step, window, bodies⟩
  rcases bodies 0 triangle rfl with ⟨prior, body, was, is, levels, -⟩
  exact ⟨step, window, prior, body, was, is, levels⟩

/-- The free triangle starts from its last new velocity; the driven one could not be updated. -/
example : (runAlone counting (ofTwoTriangles, 0) updates).1.structures.map (·.velocity) =
    [⟨⟨⟨3, 4, 0⟩, 0⟩, ⟨⟨4, 5, 0⟩, 0⟩, ⟨⟨5, 6, 0⟩, 0⟩⟩,
      ⟨⟨⟨1, 0, 0⟩, 0⟩, ⟨⟨2, 0, 0⟩, 0⟩, ⟨⟨3, 0, 0⟩, 0⟩⟩] := by
  decide +kernel

end

end Coordinator

end ImmersedBody
