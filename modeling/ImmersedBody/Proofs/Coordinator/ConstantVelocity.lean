import ImmersedBody.Proofs.Coordinator.RigidMotion
import ImmersedBody.Proofs.Coordinator.CompletedSteps
import ImmersedBody.Proofs.Rigid.FreeMotion

/-!
# Steps with a constant rigid velocity

A free structure whose rigid velocity is not set goes along its path, whatever the
lengths of the steps are: after every completed step it is where the sum of their
lengths takes it.

Between two steps the structure rests on the path (`Rests`); while a step is open it
is `InMotion`.  A step that stops at its closing is stranded: some structure has no
fields to commit any more, and the step is never completed.
-/

namespace ImmersedBody

open ImmersedBody.Action

variable {shape : Shape} {σ : Type}

namespace RigidStructure

/-- A structure between two steps, after a time on its path, with a current velocity. -/
structure Rests (mass : MassProperties ℝ) (velocity : RigidVelocity ℝ)
    (first : RigidStructure shape ℝ) (time : ℝ) (allowed : RigidVelocity ℝ → Prop)
    (body : RigidStructure shape ℝ) : Prop where
  follows : Follows first body
  onPath : OnPath mass velocity first time body.positions
  allowed : allowed body.velocity.current

/--
A structure in a step from a time on its path over a length.  The new positions are
on the path once it has moved.
-/
structure InMotion (mass : MassProperties ℝ) (velocity : RigidVelocity ℝ)
    (first : RigidStructure shape ℝ) (time length : ℝ) (moved : Prop)
    (body : RigidStructure shape ℝ) : Prop where
  follows : Follows first body
  onPath : OnPath mass velocity first time body.positions
  center : body.currentMass.center = velocity.along mass.center time mass.center
  velocity_eq : body.velocity = .uniform velocity
  step : ∃ step, body.step = some step ∧ step.halfPositions.layout = first.layout ∧
    step.newPositions.layout = first.layout ∧
      (moved → OnPath mass velocity first (time + length) step.newPositions)

variable {order : Nat} {mass : MassProperties ℝ} {velocity : RigidVelocity ℝ}
  {first body : RigidStructure shape ℝ} {time length : ℝ} {moved moved' : Prop}

theorem Rests.withMass {allowed : RigidVelocity ℝ → Prop}
    (rests : Rests mass velocity first time allowed body) (computed : MassProperties ℝ) :
    Rests mass velocity first time allowed (body.withMass computed) :=
  ⟨rests.follows.trans ⟨rfl, rfl, rfl, rfl⟩, rests.onPath, rests.allowed⟩

theorem InMotion.imp (moving : InMotion mass velocity first time length moved body)
    (weaker : moved' → moved) : InMotion mass velocity first time length moved' body where
  follows := moving.follows
  onPath := moving.onPath
  center := moving.center
  velocity_eq := moving.velocity_eq
  step := by
    rcases moving.step with ⟨step, opened, half, new, onPath⟩
    exact ⟨step, opened, half, new, onPath ∘ weaker⟩

theorem InMotion.withMass (moving : InMotion mass velocity first time length moved body)
    (out : SetsOut order mass velocity first) {computed : MassProperties ℝ}
    (found : (body.massAt body.positions order).alone = .ok computed) :
    InMotion mass velocity first time length moved (body.withMass computed) where
  follows := ⟨moving.follows.mesh, moving.follows.partition, moving.follows.layout,
    moving.follows.motion⟩
  onPath := moving.onPath
  center := out.center_eq moving.onPath moving.follows found
  velocity_eq := moving.velocity_eq
  step := moving.step

/-- The opening of a step leads off with the current velocity. -/
theorem Rests.opened (rests : Rests mass velocity first time (· = velocity) body)
    (out : SetsOut order mass velocity first) {computed : MassProperties ℝ}
    (found : (body.massAt body.positions order).alone = .ok computed) (window : StepWindow ℝ) :
    InMotion mass velocity first time length False ((body.withMass computed).opened window) where
  follows := ⟨rests.follows.mesh, rests.follows.partition, rests.follows.layout,
    rests.follows.motion⟩
  onPath := rests.onPath
  center := out.center_eq rests.onPath rests.follows found
  velocity_eq := by
    have free : (body.withMass computed).motion = .free := rests.follows.motion.trans out.motion
    rw [RigidStructure.opened, free]
    exact congrArg TimeLevels.uniform rests.allowed
  step := ⟨_, rfl, rests.onPath.layout_eq, rests.onPath.layout_eq, False.elim⟩

end RigidStructure

namespace Coordinator

open RigidStructure

variable {settings : Settings ℝ} {count part : Nat} {mass : MassProperties ℝ}
  {velocity : RigidVelocity ℝ} {first body : RigidStructure shape ℝ} {time : ℝ} {moved : Prop}
  {c : Coordinator shape ℝ} {window : StepWindow ℝ}

/-! ## One structure -/

/--
An update of the positions keeps a structure in motion, and does not stop: the mass
properties of the half time can be computed, too.  The midpoint rule moves the
structure on.
-/
theorem ends_advancing_moving (out : SetsOut c.settings.quadratureOrder mass velocity first)
    (serial : c.seat.size = 1) (rule : AdvanceRule) {number : Nat}
    (moving : InMotion mass velocity first time window.length moved body) :
    (advancing c rule window number).Ends body
      (fun _ after =>
        InMotion mass velocity first time window.length (moved ∨ rule = .midpoint) after)
      fun _ => False := by
  rcases moving.step with ⟨step, opened, half, new, onPath⟩
  have covers : body.layout.Covers first.mesh := by
    rw [moving.follows.layout]
    exact out.covers
  have placed : body.positions.Places body.layout first.mesh (velocity.along mass.center time) := by
    rw [moving.follows.layout]
    exact moving.onPath
  rw [← moving.follows.layout] at half new
  cases rule with
  | forwardEuler =>
      apply (ends_predict_placed serial opened covers placed half).imp
      · rintro _ _ ⟨halfPositions, halfMass, displaced, rfl⟩
        exact { moving with
          follows := moving.follows.trans ⟨rfl, rfl, rfl, rfl⟩
          step := ⟨_, rfl, displaced.layout_eq.trans moving.follows.layout,
            new.trans moving.follows.layout, fun goal => onPath (goal.resolve_right nofun)⟩ }
      · rintro _ ⟨halfPositions, displaced, refused, -⟩
        rw [moving.center, moving.velocity_eq, moving.follows.layout] at displaced
        rcases out.exists_mass (out.onPath_add displaced) moving.follows with ⟨mass', computed, -⟩
        exact refused mass' computed
  | midpoint =>
      apply (ends_update_placed serial opened covers placed new).imp
      · rintro _ _ ⟨newPositions, displaced, rfl⟩
        rw [moving.center, moving.velocity_eq, moving.follows.layout] at displaced
        exact { moving with
          follows := moving.follows.trans ⟨rfl, rfl, rfl, rfl⟩
          step := ⟨_, rfl, half.trans moving.follows.layout, displaced.layout_eq,
            fun _ => out.onPath_add displaced⟩ }
      · exact fun _ impossible => impossible
  | trapezoidal =>
      exact moving.imp fun goal => goal.resolve_right nofun

/-- Committing a structure that has moved brings it to the end of the step. -/
theorem ends_commit_moving {objectName : String} {forces : Option (List (NodalField ℝ))}
    {number : Nat} {length : ℝ} (moving : InMotion mass velocity first time length True body) :
    (commit objectName forces number).Ends body
      (fun _ after => after.step = none ∧
        Rests mass velocity first (time + length) (· = velocity) after)
      fun after => after.step = none := by
  rcases moving.step with ⟨step, opened, -, -, onPath⟩
  apply (ends_commit_opened opened).imp
  · rintro _ _ ⟨constraintForce, rfl⟩
    refine ⟨rfl, moving.follows.trans ⟨rfl, rfl, rfl, rfl⟩, onPath trivial, ?_⟩
    rw [moving.velocity_eq]
    rfl
  · rintro _ rfl
    rfl

/-- A structure has no fields of a step any more if committing it stops. -/
theorem ends_commit_stopped {objectName : String} {forces : Option (List (NodalField ℝ))}
    {number : Nat} :
    (commit objectName forces number).Ends body (fun _ _ => True)
      fun after => after.step = none := by
  cases opened : body.step with
  | none =>
      apply (ends_commit_closed opened).imp
      · exact fun _ _ impossible => impossible.elim
      · rintro _ rfl
        exact opened
  | some step =>
      apply (ends_commit_opened opened).imp
      · exact fun _ _ _ => trivial
      · rintro _ rfl
        rfl

/-! ## A step -/

/-- A coordinator in a step, one of whose structures is in motion. -/
structure Within (settings : Settings ℝ) (count part : Nat) (mass : MassProperties ℝ)
    (velocity : RigidVelocity ℝ) (first : RigidStructure shape ℝ) (time : ℝ)
    (window : StepWindow ℝ) (moved : Prop) (c : Coordinator shape ℝ) : Prop where
  standing : c.Standing settings count fun number body =>
    number = part → InMotion mass velocity first time window.length moved body
  window_eq : c.protocol.window = some window
  inStep : c.protocol.phase.inStep = true

/-- A coordinator with a structure that has no fields of a step, so that no step can be closed. -/
def Stranded (settings : Settings ℝ) (count : Nat) (c : Coordinator shape ℝ) : Prop :=
  ∃ part < count, c.Standing settings count (Idle part fun _ => True)

theorem Within.imp {moved' : Prop}
    (within : c.Within settings count part mass velocity first time window moved)
    (weaker : moved' → moved) :
    c.Within settings count part mass velocity first time window moved' where
  standing := within.standing.imp fun _ _ moving same => (moving same).imp weaker
  window_eq := within.window_eq
  inStep := within.inStep

theorem Within.of_sameStep {after : Coordinator shape ℝ}
    (within : c.Within settings count part mass velocity first time window moved)
    (same : c.protocol.SameStep after.protocol) {moved' : Prop}
    (standing : after.Standing settings count fun number body =>
      number = part → InMotion mass velocity first time window.length moved' body) :
    after.Within settings count part mass velocity first time window moved' where
  standing := standing
  window_eq := same.window_eq.trans within.window_eq
  inStep := same.inStep_eq.trans within.inStep

section

variable (out : SetsOut settings.quadratureOrder mass velocity first) (inside : part < count)
  {flow : FlowTransfer ℝ σ} {state : σ} {call : Call shape ℝ}

include out

omit out in
/-- Computing mass properties does not move a structure that rests. -/
theorem weighs_idle {allowed : RigidVelocity ℝ → Prop} (number : Nat)
    (body : RigidStructure shape ℝ) (computed : MassProperties ℝ)
    (idle : Idle part (Rests mass velocity first time allowed) number body)
    (_ : (body.massAt body.positions settings.quadratureOrder).alone = .ok computed) :
    Idle part (Rests mass velocity first time allowed) number (body.withMass computed) :=
  fun same => ⟨(idle same).1, (idle same).2.withMass computed⟩

/-- The center of mass that the opening of a step computes has come along the path. -/
theorem Standing.center_of_opens {allowed : RigidVelocity ℝ → Prop}
    (standing : c.Standing settings count (Idle part (Rests mass velocity first time allowed)))
    {current new : ℝ} (opens : Call.Succeeds (.preprocess current new) flow (c, state)) :
    (serveAlone flow (c, state) (.preprocess current new)).1.Standing settings count
      fun number body => number = part →
        body.currentMass.center = velocity.along mass.center time mass.center := by
  apply (standing.opened_of_opens weighs_idle opens).1.imp
  rintro number _ ⟨_, ⟨body, computed, idle, found, rfl⟩, rfl⟩ same
  exact out.center_eq (idle same).2.onPath (idle same).2.follows found

/-- Opening a step sets a structure that rests in motion. -/
theorem Standing.within_of_opens
    (standing : c.Standing settings count
      (Idle part (Rests mass velocity first time (· = velocity)))) {current new : ℝ}
    (opens : Call.Succeeds (.preprocess current new) flow (c, state)) :
    (serveAlone flow (c, state) (.preprocess current new)).1.Within settings count part mass
      velocity first time (.between current new) False := by
  rcases standing.opened_of_opens weighs_idle opens with ⟨opened, window_eq, inStep⟩
  refine ⟨opened.imp ?_, window_eq, inStep⟩
  rintro number _ ⟨_, ⟨body, computed, idle, found, rfl⟩, rfl⟩ same
  exact (idle same).2.opened out found _

/-- What an update of the positions does to the structures. -/
theorem Within.advancing
    (within : c.Within settings count part mass velocity first time window moved)
    (rule : AdvanceRule) (window' : StepWindow ℝ) (opened : c.protocol.window = some window')
    (number : Nat) (body : RigidStructure shape ℝ)
    (moving : number = part → InMotion mass velocity first time window.length moved body) :
    (advancing c rule window' number).Ends body
      (fun _ after => number = part →
        InMotion mass velocity first time window.length (moved ∨ rule = .midpoint) after)
      fun after => number = part →
        InMotion mass velocity first time window.length moved after := by
  rw [within.window_eq, Option.some.injEq] at opened
  subst opened
  rw [← within.standing.settings_eq] at out
  apply ends_of_imp
  intro same
  apply (ends_advancing_moving out within.standing.serial rule (moving same)).imp
  · exact fun _ _ after => after
  · exact fun _ impossible => impossible.elim

/-- A midpoint step moves the structure to the end of the step. -/
theorem Within.moved_of_midpoint
    (within : c.Within settings count part mass velocity first time window moved) {current new : ℝ}
    (succeeds : Call.Succeeds (.advance .midpoint current new) flow (c, state)) :
    (serveAlone flow (c, state) (.advance .midpoint current new)).1.Within settings count part mass
      velocity first time window True := by
  have served : (Call.serve flow (.advance .midpoint current new)).Ends (c, state)
      (fun _ after => after.1.Within settings count part mass velocity first time window True)
      fun _ => True := by
    rw [Call.serve, ends_first]
    apply (within.standing.ends_advance (within.advancing out .midpoint) _).imp
    · rintro _ after ⟨advanced, same⟩
      exact within.of_sameStep same (advanced.imp fun number body moving here =>
        (moving here).imp fun _ => Or.inr rfl)
    · exact fun _ _ => trivial
    · exact fun number body moving here => (moving here).imp Or.inl
  exact serveAlone_of_succeeds succeeds served

/-- A call in a step keeps a structure in motion, or the step is stranded at its closing. -/
theorem Within.serve
    (within : c.Within settings count part mass velocity first time window moved)
    (unset : call.SetsVelocityOf part → ¬ call.Succeeds flow (c, state))
    (unclosed : call = .postprocess → ¬ call.Succeeds flow (c, state)) :
    (serveAlone flow (c, state) call).1.Within settings count part mass velocity first time window
        moved ∨
      (serveAlone flow (c, state) call).1.Stranded settings count := by
  have weighs (number : Nat) (body : RigidStructure shape ℝ) (computed : MassProperties ℝ)
      (moving : number = part → InMotion mass velocity first time window.length moved body)
      (found : (body.massAt body.positions settings.quadratureOrder).alone = .ok computed) :
      number = part →
        InMotion mass velocity first time window.length moved (body.withMass computed) :=
    fun same => (moving same).withMass out found
  by_cases opening : ∃ current new, call = .preprocess current new
  · rcases opening with ⟨current, new, rfl⟩
    left
    apply serveAlone_of_ends fun after : Coordinator shape ℝ × σ =>
      after.1.Within settings count part mass velocity first time window moved
    rw [Call.serve, ends_first]
    apply (Standing.ends_preprocess weighs within.standing).imp
    · rintro _ after ⟨-, outside, -⟩
      rw [within.inStep] at outside
      cases outside
    · rintro after ⟨kept, same, -⟩
      refine ⟨kept, ?_, ?_⟩
      · rw [same within.inStep, within.window_eq]
      · rw [same within.inStep, within.inStep]
  by_cases closing : call = .postprocess
  · subst closing
    have served : (Call.serve flow .postprocess).Ends (c, state) (fun _ _ => True)
        fun after => after.1.Within settings count part mass velocity first time window moved ∨
          after.1.Stranded settings count := by
      rw [Call.serve, ends_first]
      apply (within.standing.ends_postprocess fun _ _ _ _ _ => ends_commit_stopped).imp
      · exact fun _ _ _ => trivial
      · rintro after (rfl | ⟨left, number, body, found, stopped⟩)
        · exact Or.inl within
        · right
          have bound : number < count := by
            rw [← left.length_eq]
            exact (List.getElem?_eq_some_iff.mp found).1
          refine ⟨number, bound, left.settings_eq, left.serial, left.length_eq, ?_⟩
          rintro _ other found' rfl
          rw [found, Option.some.injEq] at found'
          exact ⟨found' ▸ stopped, trivial⟩
    exact serveAlone_of_stops (unclosed rfl) served
  · left
    have ignores : IgnoresExchange fun number body =>
        number = part → InMotion mass velocity first time window.length moved body := {
      step := by
        intro number body fields fields' opened half new moving same
        rcases (moving same).step with ⟨step, found, halfLayout, newLayout, onPath⟩
        rw [found, Option.some.injEq] at opened
        subst opened
        exact { moving same with
          follows := (moving same).follows.trans ⟨rfl, rfl, rfl, rfl⟩
          step := ⟨fields', rfl, half ▸ halfLayout, new ▸ newLayout, new ▸ onPath⟩ }
      flow := by
        intro number body lagrangianVelocity moving same
        exact { moving same with follows := (moving same).follows.trans ⟨rfl, rfl, rfl, rfl⟩ } }
    have moves (rule : AdvanceRule) (window' : StepWindow ℝ)
        (opened : c.protocol.window = some window') (number : Nat) (body : RigidStructure shape ℝ)
        (moving : number = part → InMotion mass velocity first time window.length moved body) :=
      (within.advancing out rule window' opened number body moving).imp
        (fun _ _ moved same => (moved same).imp Or.inl) fun _ kept => kept
    have served := within.standing.ends_serve_between ignores weighs moves
      (fun current new same => opening ⟨current, new, same⟩) closing flow state
    by_cases succeeds : call.Succeeds flow (c, state)
    · have kept := serveAlone_of_succeeds succeeds served fun number body given gives _ same =>
        absurd succeeds (unset (same ▸ gives.setsVelocityOf))
      exact within.of_sameStep kept.2 kept.1
    · have kept := serveAlone_of_stops succeeds served
      exact within.of_sameStep kept.2 kept.1

/-- A coordinator in a step that can still be completed, or that is stranded. -/
def Going (settings : Settings ℝ) (count part : Nat) (mass : MassProperties ℝ)
    (velocity : RigidVelocity ℝ) (first : RigidStructure shape ℝ) (time : ℝ)
    (window : StepWindow ℝ) (moved : Prop) (c : Coordinator shape ℝ) : Prop :=
  c.Within settings count part mass velocity first time window moved ∨ c.Stranded settings count

omit out in
/-- A step that is stranded remains so until another one is opened. -/
theorem Stranded.serve (stranded : c.Stranded settings count)
    (unopened : call.Opens → ¬ call.Succeeds flow (c, state)) :
    (serveAlone flow (c, state) call).1.Stranded settings count := by
  rcases stranded with ⟨other, bound, standing⟩
  exact ⟨other, bound, standing.serve_idle bound (fun _ _ _ => trivial) (fun _ _ _ => trivial)
    unopened fun _ _ _ _ _ => trivial⟩

/-- The structure has moved once a midpoint step has succeeded. -/
theorem Going.run {calls : List (Call shape ℝ)} :
    ∀ {c : Coordinator shape ℝ} {state : σ} {moved : Prop},
      NeverSucceeds flow (fun call => call.Opens ∨ call = .postprocess ∨ call.SetsVelocityOf part)
          (c, state) calls →
        c.Going settings count part mass velocity first time window moved →
          (runAlone flow (c, state) calls).1.Going settings count part mass velocity first time
            window (moved ∨ SomeSucceeds flow (Call.Advances .midpoint) (c, state) calls) := by
  induction calls with
  | nil =>
      intro c state moved _ going
      exact going.imp (fun within => within.imp fun has => has.resolve_right id) id
  | cons call calls ih =>
      intro c state moved never going
      have unopened : call.Opens → ¬ call.Succeeds flow (c, state) :=
        fun kind => never.1 (.inl kind)
      have served : (serveAlone flow (c, state) call).1.Going settings count part mass velocity
          first time window (moved ∨ call.Advances .midpoint ∧ call.Succeeds flow (c, state)) := by
        rcases going with within | stranded
        · by_cases moves : call.Advances .midpoint ∧ call.Succeeds flow (c, state)
          · left
            cases call with
            | advance rule current new =>
                rcases moves with ⟨rfl, succeeds⟩
                exact (within.moved_of_midpoint out succeeds).imp fun _ => trivial
            | _ =>
                exact moves.1.elim
          · apply (within.serve out (fun kind => never.1 (.inr (.inr kind)))
              fun kind => never.1 (.inr (.inl kind))).imp _ id
            exact fun within => within.imp fun has => has.resolve_right moves
        · exact Or.inr (stranded.serve unopened)
      have later := ih never.2 served
      rw [or_assoc] at later
      exact later

omit out in
/-- Closing a step brings the structure to rest at the end of it. -/
theorem Going.rests_of_closes
    (going : c.Going settings count part mass velocity first time window True)
    (closes : Call.Succeeds .postprocess flow (c, state)) :
    (serveAlone flow (c, state) .postprocess).1.Standing settings count
      (Idle part (Rests mass velocity first (time + window.length) (· = velocity))) := by
  rcases going with within | ⟨other, bound, standing⟩
  · have commits (objectName : String) (forces : Option (List (NodalField ℝ))) (number : Nat)
        (body : RigidStructure shape ℝ)
        (moving : number = part → InMotion mass velocity first time window.length True body) :
        (commit objectName forces number).Ends body
          (fun _ after => Idle part
            (Rests mass velocity first (time + window.length) (· = velocity)) number after)
          fun after => number = part → after.step = none := by
      apply ends_of_imp
      exact fun same => ends_commit_moving (moving same)
    have served : (Call.serve flow .postprocess).Ends (c, state)
        (fun _ after => after.1.Standing settings count
          (Idle part (Rests mass velocity first (time + window.length) (· = velocity))))
        fun _ => True := by
      rw [Call.serve, ends_first]
      exact (within.standing.ends_postprocess commits).imp (fun _ _ committed => committed)
        fun _ _ => trivial
    exact serveAlone_of_succeeds closes served
  · -- A step that is stranded is never closed.
    have served : (Call.serve flow .postprocess).Ends (c, state) (fun _ _ => False)
        fun _ => True := by
      rw [Call.serve, ends_first]
      exact (standing.ends_postprocess_idle bound).imp (fun _ _ impossible => impossible)
        fun _ _ => trivial
    exact (serveAlone_of_succeeds closes served).elim

omit out in
/-- A structure rests as long as no step is opened; its velocity may be set. -/
theorem Standing.rests_of_waits (inside : part < count) {allowed : RigidVelocity ℝ → Prop}
    {kind : Call shape ℝ → Prop} {calls : List (Call shape ℝ)}
    (standing : c.Standing settings count (Idle part (Rests mass velocity first time allowed)))
    (waits : NeverSucceeds flow kind (c, state) calls) (openings : ∀ call, call.Opens → kind call)
    (keeps : ∀ call, ¬ kind call → ∀ before after : TimeLevels (RigidVelocity ℝ),
      call.Gives part before after → allowed before.current → allowed after.current) :
    (runAlone flow (c, state) calls).1.Standing settings count
      (Idle part (Rests mass velocity first time allowed)) := by
  apply Standing.run_idle inside _ _ openings _ waits standing
  · exact fun body _ rests => { rests with follows := rests.follows.trans ⟨rfl, rfl, rfl, rfl⟩ }
  · exact fun body computed rests => rests.withMass computed
  · intro call other body given gives rests
    exact { rests with
      follows := rests.follows.trans ⟨rfl, rfl, rfl, rfl⟩
      allowed := keeps call other _ _ gives rests.allowed }

include inside

/-- A completed step takes the structure on by its length. -/
theorem Standing.rests_of_completes {step : StepCalls shape ℝ}
    (standing : c.Standing settings count
      (Idle part (Rests mass velocity first time (· = velocity))))
    (completes : step.Completes flow part (c, state)) :
    (runAlone flow (c, state) step.calls).1.Standing settings count
      (Idle part (Rests mass velocity first (time + step.length) (· = velocity))) := by
  have waited := standing.rests_of_waits inside completes.idle (fun _ => Or.inl)
    fun call other _ _ gives => absurd (Or.inr gives.setsVelocityOf) other
  have opened := waited.within_of_opens out completes.opens
  have went : (runAlone flow (step.opened flow (c, state)) step.within).1.Going settings count part
      mass velocity first time (.between step.current step.new) True := by
    apply (Going.run out completes.undisturbed (Or.inl opened)).imp _ id
    exact fun within => within.imp fun _ => Or.inr completes.moves
  rw [StepCalls.runAlone_calls]
  exact Going.rests_of_closes went completes.closes

/-- Completed steps take the structure on by the sum of their lengths. -/
theorem Standing.rests_of_allComplete {steps : List (StepCalls shape ℝ)} :
    ∀ {c : Coordinator shape ℝ} {state : σ} {time : ℝ},
      c.Standing settings count (Idle part (Rests mass velocity first time (· = velocity))) →
        StepCalls.AllComplete flow part (c, state) steps →
          (runAlone flow (c, state) (steps.flatMap (·.calls))).1.Standing settings count
            (Idle part (Rests mass velocity first (time + (steps.map (·.length)).sum)
              (· = velocity))) := by
  induction steps with
  | nil =>
      intro c state time standing _
      rw [List.map_nil, List.sum_nil, add_zero]
      exact standing
  | cons step steps ih =>
      intro c state time standing complete
      rw [List.flatMap_cons, runAlone_append, List.map_cons, List.sum_cons, ← add_assoc]
      exact ih (standing.rests_of_completes out inside complete.1) complete.2

end

end Coordinator

end ImmersedBody
