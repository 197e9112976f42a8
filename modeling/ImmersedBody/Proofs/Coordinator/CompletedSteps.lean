import ImmersedBody.Proofs.Coordinator.Standing

/-!
# Completed steps

A run is made of steps that are opened and closed, with calls before the opening
and within the step that may fail or succeed.  What such calls leave alone between
two steps, and after a step that can no longer be closed, is said by
`Standing.serve_idle`.
-/

namespace ImmersedBody.Coordinator

open ImmersedBody.Action RigidStructure

variable {α σ : Type} {shape : Shape}

/-! ## Kinds of calls -/

/-- A call that opens a step. -/
def Call.Opens : Call shape α → Prop
  | preprocess _ _ => True
  | _ => False

/-- A call that updates the positions by a rule. -/
def Call.Advances (rule : AdvanceRule) : Call shape α → Prop
  | advance rule' _ _ => rule' = rule
  | _ => False

/-- A call that sets the rigid velocity of the structure with a number. -/
def Call.SetsVelocityOf (part : Nat) : Call shape α → Prop
  | updateVelocity number _ | setVelocity number _ => number = part
  | restore _ => True
  | _ => False

variable [Scalar α]

theorem Call.Gives.setsVelocityOf {call : Call shape α} {part : Nat}
    {before after : TimeLevels (RigidVelocity α)} (gives : call.Gives part before after) :
    call.SetsVelocityOf part := by
  cases call with
  | updateVelocity number dofs | setVelocity number velocity =>
      exact gives.1
  | restore record =>
      trivial
  | _ =>
      exact gives.elim

/-! ## Runs -/

variable {flow : FlowTransfer α σ}

theorem runAlone_nil (start : Coordinator shape α × σ) : runAlone flow start [] = start :=
  rfl

theorem runAlone_append (start : Coordinator shape α × σ) (calls later : List (Call shape α)) :
    runAlone flow start (calls ++ later) = runAlone flow (runAlone flow start calls) later :=
  List.foldl_append

/-- No call of a kind succeeds in a run. -/
def NeverSucceeds (flow : FlowTransfer α σ) (kind : Call shape α → Prop) :
    Coordinator shape α × σ → List (Call shape α) → Prop
  | _, [] => True
  | state, call :: calls =>
      (kind call → ¬ call.Succeeds flow state) ∧
        NeverSucceeds flow kind (serveAlone flow state call) calls

/-- Some call of a kind succeeds in a run. -/
def SomeSucceeds (flow : FlowTransfer α σ) (kind : Call shape α → Prop) :
    Coordinator shape α × σ → List (Call shape α) → Prop
  | _, [] => False
  | state, call :: calls =>
      kind call ∧ call.Succeeds flow state ∨
        SomeSucceeds flow kind (serveAlone flow state call) calls

/-- The calls of one step, with those before it is opened. -/
structure StepCalls (shape : Shape) (α : Type) where
  before : List (Call shape α)
  current : α
  new : α
  within : List (Call shape α)

namespace StepCalls

/-- All calls up to the closing of the step. -/
def calls (step : StepCalls shape α) : List (Call shape α) :=
  step.before ++ .preprocess step.current step.new :: (step.within ++ [.postprocess])

/-- How long the step takes. -/
def length (step : StepCalls shape α) : α :=
  step.new - step.current

/-- The coordinator and the flow after the opening. -/
def opened (flow : FlowTransfer α σ) (start : Coordinator shape α × σ) (step : StepCalls shape α) :
    Coordinator shape α × σ :=
  serveAlone flow (runAlone flow start step.before) (.preprocess step.current step.new)

theorem runAlone_calls (start : Coordinator shape α × σ) (step : StepCalls shape α) :
    runAlone flow start step.calls =
      serveAlone flow (runAlone flow (step.opened flow start) step.within) .postprocess := by
  rw [calls, runAlone_append]
  show runAlone flow (step.opened flow start) (step.within ++ [.postprocess]) = _
  rw [runAlone_append]
  rfl

/--
The step is completed, and the rigid velocity of a structure is set neither in it
nor before it: the step is opened once and closed once, and a midpoint step succeeds
in between, which the protocol allows only after a prediction.  All other calls may
succeed or fail.
-/
structure Completes (flow : FlowTransfer α σ) (part : Nat) (start : Coordinator shape α × σ)
    (step : StepCalls shape α) : Prop where
  idle : NeverSucceeds flow (fun call => call.Opens ∨ call.SetsVelocityOf part) start step.before
  opens : Call.Succeeds (.preprocess step.current step.new) flow (runAlone flow start step.before)
  undisturbed : NeverSucceeds flow
    (fun call => call.Opens ∨ call = .postprocess ∨ call.SetsVelocityOf part)
    (step.opened flow start) step.within
  moves : SomeSucceeds flow (Call.Advances .midpoint) (step.opened flow start) step.within
  closes : Call.Succeeds .postprocess flow (runAlone flow (step.opened flow start) step.within)

/-- Steps that are completed one after the other. -/
def AllComplete (flow : FlowTransfer α σ) (part : Nat) :
    Coordinator shape α × σ → List (StepCalls shape α) → Prop
  | _, [] => True
  | start, step :: steps =>
      step.Completes flow part start ∧ AllComplete flow part (runAlone flow start step.calls) steps

end StepCalls

/-! ## How a call ends -/

section

variable {call : Call shape α} {state : Coordinator shape α × σ}
  {post stopped : Coordinator shape α × σ → Prop}

theorem serveAlone_of_succeeds (succeeds : call.Succeeds flow state)
    (ends : (call.serve flow).Ends state (fun _ after => post after) stopped) :
    post (serveAlone flow state call) := by
  rw [Call.Succeeds] at succeeds
  rw [Ends] at ends
  rw [serveAlone]
  generalize (call.serve flow).alone state = result at *
  rcases result with ⟨_ | _, after⟩
  · cases succeeds
  · exact ends

theorem serveAlone_of_stops (stops : ¬ call.Succeeds flow state)
    (ends : (call.serve flow).Ends state (fun _ after => post after) stopped) :
    stopped (serveAlone flow state call) := by
  rw [Call.Succeeds] at stops
  rw [Ends] at ends
  rw [serveAlone]
  generalize (call.serve flow).alone state = result at *
  rcases result with ⟨_ | _, after⟩
  · exact ends
  · exact absurd rfl stops

/-- A call that cannot stop succeeds. -/
theorem succeeds_of_ends
    (ends : (call.serve flow).Ends state (fun _ after => post after) fun _ => False) :
    call.Succeeds flow state ∧ post (serveAlone flow state call) := by
  by_cases succeeds : call.Succeeds flow state
  · exact ⟨succeeds, serveAlone_of_succeeds succeeds ends⟩
  · exact (serveAlone_of_stops succeeds ends).elim

end

/-- A step that is opened has weighed and opened all structures. -/
theorem Standing.opened_of_opens {settings : Settings α} {count : Nat} {c : Coordinator shape α}
    {state : σ} {fits : Nat → RigidStructure shape α → Prop}
    (standing : c.Standing settings count fits)
    (weighs : ∀ part body mass, fits part body →
      (body.massAt body.positions settings.quadratureOrder).alone = .ok mass →
        fits part (body.withMass mass)) {current new : α}
    (opens : Call.Succeeds (.preprocess current new) flow (c, state)) :
    (serveAlone flow (c, state) (.preprocess current new)).1.Standing settings count
        (fun part after => ∃ body, Weighed settings.quadratureOrder fits part body ∧
          after = body.opened (.between current new)) ∧
      (serveAlone flow (c, state) (.preprocess current new)).1.protocol.window =
          some (.between current new) ∧
        (serveAlone flow (c, state) (.preprocess current new)).1.protocol.phase.inStep = true := by
  have served : (Call.serve flow (.preprocess current new)).Ends (c, state)
      (fun _ after => after.1.Standing settings count
          (fun part after => ∃ body, Weighed settings.quadratureOrder fits part body ∧
            after = body.opened (.between current new)) ∧
        after.1.protocol.window = some (.between current new) ∧
          after.1.protocol.phase.inStep = true)
      fun _ => True := by
    rw [Call.serve, ends_first]
    apply (ends_preprocess weighs standing).imp _ fun _ _ => trivial
    rintro _ after ⟨opened, -, protocol⟩
    rw [protocol]
    exact ⟨opened, rfl, rfl⟩
  exact serveAlone_of_succeeds opens served

/-- An update of the positions that succeeds is accepted, and is done for all structures. -/
theorem Standing.advanced_of_succeeds {settings : Settings α} {count : Nat} {c : Coordinator shape α}
    {state : σ} {fits done : Nat → RigidStructure shape α → Prop}
    (standing : c.Standing settings count fits) {rule : AdvanceRule} {current new : α}
    (moves : ∀ window, c.protocol.window = some window → ∀ part body, fits part body →
      (advancing c rule window part).Ends body (fun _ after => done part after) fun _ => True)
    (succeeds : Call.Succeeds (.advance rule current new) flow (c, state)) :
    (serveAlone flow (c, state) (.advance rule current new)).1.Standing settings count done ∧
      ∃ outcome, c.protocol.advance rule = .ok outcome ∧
        (serveAlone flow (c, state) (.advance rule current new)).1.protocol =
          outcome.protocol := by
  have served : (Call.serve flow (.advance rule current new)).Ends (c, state)
      (fun _ after => after.1.Standing settings count done ∧
        ∃ outcome, c.protocol.advance rule = .ok outcome ∧ after.1.protocol = outcome.protocol)
      fun _ => True := by
    rw [Call.serve, ends_first]
    cases checked : c.checkTimes rule current new with
    | error violation =>
        rw [advance]
        simp only [ends_bind, ends_get, ends_checking, checked]
    | ok _ =>
        cases accepted : c.protocol.advance rule with
        | error violation =>
            rw [advance]
            simp only [ends_bind, ends_get, ends_checking, ends_attempting, ends_committing,
              checked, accepted]
        | ok outcome =>
            rcases StepProtocol.advance_eq_ok_iff.mp accepted with ⟨_, _, -, opened, -, same⟩
            have opened' : c.protocol.window = some outcome.value := by
              rw [opened, same]
            exact (standing.ends_advance_accepted checked accepted (moves _ opened')).imp
              (fun _ _ moved => ⟨moved.1, outcome, rfl, moved.2⟩) fun _ _ => trivial
  exact serveAlone_of_succeeds succeeds served

/-! ## Structures outside a step -/

section

variable {settings : Settings α} {count part : Nat} {c : Coordinator shape α} {state : σ}
  {fits : RigidStructure shape α → Prop}

/-- A structure with a number that has no fields of a step, and a property. -/
def Idle (part : Nat) (fits : RigidStructure shape α → Prop) (number : Nat)
    (body : RigidStructure shape α) : Prop :=
  number = part → body.step = none ∧ fits body

omit [Scalar α] in
/-- What is known of one structure outside a step. -/
theorem Standing.idle_of_getElem? {known : Nat → RigidStructure shape α → Prop}
    (standing : c.Standing settings count known) {body : RigidStructure shape α}
    (found : c.structures[part]? = some body) (closed : body.step = none) (fit : fits body) :
    c.Standing settings count (Idle part fits) := by
  refine { standing with each := ?_ }
  rintro number other found' rfl
  rw [found, Option.some.injEq] at found'
  subst found'
  exact ⟨closed, fit⟩

omit [Scalar α] in
/-- A step in which some structure has no fields of a step cannot be closed. -/
theorem Standing.ends_postprocess_idle (standing : c.Standing settings count (Idle part fits))
    (inside : part < count) :
    (postprocess : Work shape α Unit).Ends c (fun _ _ => False)
      (Standing settings count (Idle part fits)) := by
  have commits (objectName : String) (forces : Option (List (NodalField α))) (number : Nat)
      (body : RigidStructure shape α) (idle : Idle part fits number body) :
      (commit objectName forces number).Ends body (fun _ _ => number ≠ part)
        fun after => Idle part fits number after := by
    apply ends_of_imp
    intro same
    apply (ends_commit_closed (idle same).1).imp
    · exact fun _ _ impossible => impossible
    · rintro _ rfl
      exact idle same
  apply (standing.ends_postprocess commits).imp
  · intro _ after committed
    rcases committed.exists_structure inside with ⟨body, -, other⟩
    exact other rfl
  · rintro after (rfl | ⟨left, -⟩)
    · exact standing
    · apply left.imp
      rintro number body (other | idle | idle)
      · exact fun same => absurd same other
      · exact idle
      · exact idle

/--
A structure stays without fields of a step as long as no step is opened, and keeps
a property that neither its velocities nor what is sampled or computed matters for,
apart from velocities that the call gives to it.
-/
theorem Standing.serve_idle (standing : c.Standing settings count (Idle part fits))
    (inside : part < count)
    (samples : ∀ body lagrangianVelocity, fits body → fits { body with lagrangianVelocity })
    (weighs : ∀ body mass, fits body → fits (body.withMass mass)) {call : Call shape α}
    (unopened : call.Opens → ¬ call.Succeeds flow (c, state))
    (gives : call.Succeeds flow (c, state) → ∀ body velocity,
      call.Gives part body.velocity velocity → fits body → fits { body with velocity }) :
    (serveAlone flow (c, state) call).1.Standing settings count (Idle part fits) := by
  have weighed (number : Nat) (body : RigidStructure shape α) (mass : MassProperties α)
      (idle : Idle part fits number body)
      (_ : (body.massAt body.positions settings.quadratureOrder).alone = .ok mass) :
      Idle part fits number (body.withMass mass) :=
    fun same => ⟨(idle same).1, weighs body mass (idle same).2⟩
  by_cases opening : call.Opens
  · cases call with
    | preprocess current new =>
        have refused : (Call.serve flow (.preprocess current new)).Ends (c, state)
            (fun _ _ => True) fun after => after.1.Standing settings count (Idle part fits) := by
          rw [Call.serve, ends_first]
          exact (ends_preprocess weighed standing).imp (fun _ _ _ => trivial) fun _ kept => kept.1
        exact serveAlone_of_stops (unopened opening) refused
    | _ =>
        exact opening.elim
  by_cases closing : call = .postprocess
  · subst closing
    apply serveAlone_of_ends fun after => after.1.Standing settings count (Idle part fits)
    rw [Call.serve, ends_first]
    exact (standing.ends_postprocess_idle inside).imp (fun _ _ impossible => impossible.elim)
      fun _ kept => kept
  · have ignores : IgnoresExchange (Idle part fits) := {
      step := by
        intro number body fields fields' opened _ _ idle same
        rw [(idle same).1] at opened
        cases opened
      flow := fun number body lagrangianVelocity idle same =>
        ⟨(idle same).1, samples body lagrangianVelocity (idle same).2⟩ }
    have moves (rule : AdvanceRule) (window : StepWindow α)
        (_ : c.protocol.window = some window) (number : Nat) (body : RigidStructure shape α)
        (idle : Idle part fits number body) :
        (advancing c rule window number).Ends body (fun _ after => Idle part fits number after)
          fun after => Idle part fits number after := by
      apply ends_of_imp
      intro same
      apply (ends_advancing_closed (idle same).1).imp
      · rintro _ _ rfl
        exact idle same
      · rintro _ rfl
        exact idle same
    have served := standing.ends_serve_between ignores weighed moves
      (by rintro current new rfl; exact opening trivial) closing flow state
    by_cases succeeds : call.Succeeds flow (c, state)
    · apply (serveAlone_of_succeeds succeeds served _).1
      rintro number body velocity given idle rfl
      exact ⟨(idle rfl).1, gives succeeds body velocity given (idle rfl).2⟩
    · exact (serveAlone_of_stops succeeds served).1

/-- What calls leave alone as long as none of a kind succeeds that includes all openings. -/
theorem Standing.run_idle (inside : part < count)
    (samples : ∀ body lagrangianVelocity, fits body → fits { body with lagrangianVelocity })
    (weighs : ∀ body mass, fits body → fits (body.withMass mass)) {kind : Call shape α → Prop}
    (openings : ∀ call, call.Opens → kind call)
    (gives : ∀ call, ¬ kind call → ∀ body velocity,
      call.Gives part body.velocity velocity → fits body → fits { body with velocity })
    {calls : List (Call shape α)} :
    ∀ {c : Coordinator shape α} {state : σ}, NeverSucceeds flow kind (c, state) calls →
      c.Standing settings count (Idle part fits) →
        (runAlone flow (c, state) calls).1.Standing settings count (Idle part fits) := by
  induction calls with
  | nil =>
      exact fun _ standing => standing
  | cons call calls ih =>
      intro c state never standing
      have served := standing.serve_idle inside samples weighs
        (fun opens => never.1 (openings call opens))
        fun succeeds => gives call fun kind => never.1 kind succeeds
      exact ih never.2 served

end

end ImmersedBody.Coordinator
