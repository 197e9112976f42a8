import ImmersedBody.Proofs.Coordinator.Commits

/-!
# Properties of the structures of a coordinator

A property of a structure may depend on the number of the structure.
`Coordinator.Standing` says that every structure of a coordinator on the only rank
has its property.  For each operation there is one rule that says what has to be
known about a single structure; an operation that exchanges data with the flow or
the solver only needs a property that this data does not matter for.

`Standing.ends_serve_between` puts the rules together for all calls that neither
open nor close a step.
-/

namespace ImmersedBody

open ImmersedBody.Action

variable {α σ τ : Type} {shape : Shape}

/-- A property of numbered structures that data of the solver does not matter for. -/
structure RigidStructure.IgnoresSolver (fits : Nat → RigidStructure shape α → Prop) : Prop where
  step : ∀ part (body : RigidStructure shape α) fields fields', body.step = some fields →
    fields'.halfPositions = fields.halfPositions → fields'.newPositions = fields.newPositions →
      fields'.halfVelocity = fields.halfVelocity → fields'.newVelocity = fields.newVelocity →
        fits part body → fits part { body with step := some fields' }

theorem RigidStructure.IgnoresSolver.hidesSolver {fits : Nat → RigidStructure shape α → Prop}
    (ignores : IgnoresSolver fits) : HidesSolver fun body part => fits part body := by
  intro body fields fields' opened half new halfVelocity newVelocity
  funext part
  apply propext
  constructor
  · intro after
    have back := ignores.step part { body with step := some fields' } fields' fields rfl half.symm
      new.symm halfVelocity.symm newVelocity.symm after
    rw [← opened] at back
    exact back
  · exact ignores.step part body fields fields' opened half new halfVelocity newVelocity

/-- A property of numbered structures that data of flow and solver does not matter for. -/
structure RigidStructure.IgnoresExchange (fits : Nat → RigidStructure shape α → Prop) : Prop where
  step : ∀ part (body : RigidStructure shape α) fields fields', body.step = some fields →
    fields'.halfPositions = fields.halfPositions → fields'.newPositions = fields.newPositions →
      fits part body → fits part { body with step := some fields' }
  flow : ∀ part (body : RigidStructure shape α) lagrangianVelocity,
    fits part body → fits part { body with lagrangianVelocity }

namespace RigidStructure.IgnoresExchange

variable {fits : Nat → RigidStructure shape α → Prop}

theorem ignoresSolver (ignores : IgnoresExchange fits) : IgnoresSolver fits where
  step := fun part body fields fields' opened half new _ _ =>
    ignores.step part body fields fields' opened half new

theorem hidesExchange (ignores : IgnoresExchange fits) :
    HidesExchange fun body part => fits part body := by
  intro body fields fields' opened half new
  funext part
  apply propext
  constructor
  · intro after
    have back := ignores.step part { body with step := some fields' } fields' fields rfl half.symm
      new.symm after
    rw [← opened] at back
    exact back
  · exact ignores.step part body fields fields' opened half new

theorem hidesFlow (ignores : IgnoresExchange fits) : HidesFlow fun body part => fits part body := by
  intro body lagrangianVelocity
  funext part
  apply propext
  constructor
  · exact ignores.flow part { body with lagrangianVelocity } body.lagrangianVelocity
  · exact ignores.flow part body lagrangianVelocity

end RigidStructure.IgnoresExchange

/-- The protocol after a step has been opened. -/
def StepProtocol.opened (protocol : StepProtocol α) (window : StepWindow α) : StepProtocol α :=
  { protocol.cleared with phase := .preprocessed, window := some window }

/-- What all members of a list have is left where work on the list stops. -/
theorem Action.Stopped.forall_getElem? {done stop : Nat → τ → τ → Prop} {number : Nat}
    {members members' : List τ} (stopped : Stopped done stop number members members')
    (fits : Nat → τ → Prop)
    (finished : ∀ i member after, done i member after → fits i after)
    (last : ∀ i member after, stop i member after → fits i after)
    (untouched : ∀ i member, members[i]? = some member → fits (number + i) member) :
    ∀ i after, members'[i]? = some after → fits (number + i) after := by
  induction stopped with
  | here rest first =>
      intro i after found
      cases i with
      | zero =>
          cases found
          exact last _ _ _ first
      | succ i =>
          exact untouched (i + 1) after found
  | @there number member after' rest rest' first later ih =>
      intro i after found
      cases i with
      | zero =>
          cases found
          exact finished _ _ _ first
      | succ i =>
          rw [Nat.add_comm i, ← Nat.add_assoc]
          apply ih _ i after found
          intro j other inside
          rw [Nat.add_assoc, Nat.add_comm 1 j]
          exact untouched (j + 1) other inside

/-- Work on a list stops at a member that can be found in the list by its number. -/
theorem Action.Stopped.exists_getElem? {done stop : Nat → τ → τ → Prop} {number : Nat}
    {members members' : List τ} (stopped : Stopped done stop number members members') :
    ∃ i member after, members'[i]? = some after ∧ stop (number + i) member after := by
  induction stopped with
  | here rest first =>
      exact ⟨0, _, _, rfl, first⟩
  | @there number member after' rest rest' first later ih =>
      rcases ih with ⟨i, other, after, found, last⟩
      refine ⟨i + 1, other, after, found, ?_⟩
      rw [Nat.add_comm i, ← Nat.add_assoc]
      exact last

namespace Coordinator

open RigidStructure

/-- A call that sets rigid velocities. -/
def Call.Sets : Call shape α → Prop
  | updateVelocity _ _ | setVelocity _ _ | restore _ => True
  | _ => False

/-- The velocities that a call gives to a structure with a number, given those before it. -/
def Call.Gives [Scalar α] : Call shape α → Nat → TimeLevels (RigidVelocity α) →
    TimeLevels (RigidVelocity α) → Prop
  | updateVelocity number dofs, part, before, after =>
      let new := RigidVelocity.ofDofs shape.dim dofs
      number = part ∧ after = ⟨before.current, before.current.average new, new⟩
  | setVelocity number velocity, part, _, after => number = part ∧ after = .uniform velocity
  | restore record, part, _, after =>
      ∃ velocity, record.velocities[part]? = some velocity ∧ after = .uniform velocity
  | _, _, _, _ => False

/-! ## Committing one structure -/

section

variable {body : RigidStructure shape α} {objectName : String}
  {forces : Option (List (NodalField α))} {part : Nat}

/-- Committing takes over the fields of the step, and the new velocity unless it stops. -/
theorem ends_commit_opened {step : StepFields α} (opened : body.step = some step) :
    (commit objectName forces part).Ends body
      (fun _ after => ∃ constraintForce, after = { body.committed step with
        constraintForce, velocity := { body.velocity with current := body.velocity.new } })
      fun after => after = body.committed step := by
  rw [commit]
  simp only [ends_bind, ends_get, opened, ends_set]
  cases forces.bind fun forces => forces[part]? with
  | none =>
      simp only [ends_modify]
      exact ⟨_, rfl⟩
  | some source =>
      cases copied : (body.committed step).constraintForce.copyFrom source with
      | error refused =>
          simp only [copied, ends_bind, ends_refuse]
      | ok constraintForce =>
          simp only [copied, ends_bind, ends_set, ends_modify]
          exact ⟨constraintForce, rfl⟩

/-- Without fields of a step there is nothing to commit. -/
theorem ends_commit_closed (closed : body.step = none) :
    (commit objectName forces part).Ends body (fun _ _ => False) fun after => after = body := by
  rw [commit]
  simp only [ends_bind, ends_get, closed, ends_refuse]

end

/-! ## What a coordinator shows apart from composite forces -/

variable {view : RigidStructure shape α → τ}

/-- What a coordinator shows of a step, apart from the composite forces. -/
def outline (view : RigidStructure shape α → τ) (c : Coordinator shape α) : Overview α τ :=
  { overview view c with newForces := none }

theorem outline_eq_of_overview_eq {c c' : Coordinator shape α}
    (same : overview view c = overview view c') : outline view c = outline view c' :=
  congrArg (fun shown : Overview α τ => { shown with newForces := none }) same

theorem fixes_changeForces [Scalar α] {time : α} {change : CompositeField α → CompositeField α} :
    Fixes (outline view) (changeForces time change) := by
  intro c
  rw [changeForces]
  simp only [ends_bind, ends_get, ends_checking]
  cases c.protocol.queryForce time with
  | error violation =>
      trivial
  | ok level =>
      cases level with
      | none =>
          simp only [ends_bind, ends_tell, ends_pure]
      | some level =>
          simp only
          cases present : c.forcesAt level with
          | none =>
              rfl
          | some forces =>
              simp only [ends_bind, ends_set, ends_pure]
              cases level with
              | current =>
                  have allocated : c.currentForces = some forces := present
                  simp only [outline, overview, withForcesAt, allocated, Option.isSome_some]
              | half | new =>
                  rfl

/-- What an update of the positions by a rule does to one structure. -/
def advancing [Scalar α] (c : Coordinator shape α) (rule : AdvanceRule) (window : StepWindow α)
    (part : Nat) : Action α (RigidStructure shape α) Unit :=
  match rule with
  | .forwardEuler => predict c.seat c.name c.settings.quadratureOrder window part
  | .midpoint => update c.seat window part
  | .trapezoidal => pure ()

/-- Without fields of a step an update of the positions stops at once. -/
theorem ends_advancing_closed [Scalar α] {c : Coordinator shape α} {rule : AdvanceRule}
    {window : StepWindow α} {part : Nat} {body : RigidStructure shape α}
    (closed : body.step = none) :
    (advancing c rule window part).Ends body (fun _ after => after = body)
      fun after => after = body := by
  cases rule with
  | forwardEuler =>
      rw [advancing, predict]
      simp only [ends_bind, ends_get, ends_stepFields, closed]
  | midpoint =>
      rw [advancing, update]
      simp only [ends_bind, ends_get, ends_stepFields, closed]
  | trapezoidal =>
      rfl

/-- A coordinator on the only rank whose structures have a property each. -/
structure Standing (settings : Settings α) (count : Nat)
    (fits : Nat → RigidStructure shape α → Prop) (c : Coordinator shape α) : Prop where
  settings_eq : c.settings = settings
  serial : c.seat.size = 1
  length_eq : c.structures.length = count
  each : ∀ part body, c.structures[part]? = some body → fits part body

/-! ## Work on structures -/

namespace Standing

variable {settings : Settings α} {count : Nat} {c after : Coordinator shape α}
  {fits done stop : Nat → RigidStructure shape α → Prop}

theorem imp (standing : c.Standing settings count fits)
    (weaker : ∀ part body, fits part body → done part body) : c.Standing settings count done where
  settings_eq := standing.settings_eq
  serial := standing.serial
  length_eq := standing.length_eq
  each := fun part body found => weaker part body (standing.each part body found)

/-- The structure with a number. -/
theorem exists_structure (standing : c.Standing settings count fits) {part : Nat}
    (inside : part < count) : ∃ body, c.structures[part]? = some body ∧ fits part body := by
  rw [← standing.length_eq] at inside
  have found := List.getElem?_eq_getElem inside
  exact ⟨_, found, standing.each part _ found⟩

/-- Only the settings, the place and the structures matter. -/
theorem congr (standing : c.Standing settings count fits)
    (settings_eq : after.settings = c.settings) (seat : after.seat = c.seat)
    (structures : after.structures = c.structures) : after.Standing settings count fits where
  settings_eq := settings_eq.trans standing.settings_eq
  serial := by rw [seat, standing.serial]
  length_eq := by rw [structures, standing.length_eq]
  each := by
    rw [structures]
    exact standing.each

/-- What does not show does not matter. -/
theorem of_outline (standing : c.Standing settings count fits)
    (same : outline (fun body part => fits part body) after =
      outline (fun body part => fits part body) c) : after.Standing settings count fits where
  settings_eq := (congrArg Overview.settings same).trans standing.settings_eq
  serial := (congrArg (fun shown => shown.seat.size) same).trans standing.serial
  length_eq := by
    have lengths := congrArg (fun shown => shown.bodies.length) same
    simp only [outline, overview, List.length_map] at lengths
    exact lengths.trans standing.length_eq
  each := by
    intro part body found
    have shown := congrArg (fun shown => shown.bodies[part]?) same
    simp only [outline, overview, List.getElem?_map, found, Option.map_some] at shown
    rcases Option.map_eq_some_iff.mp shown.symm with ⟨before, inside, views⟩
    exact (congrFun views part).mp (standing.each part before inside)

theorem sameStep_of_outline (same : outline view after = outline view c) :
    c.protocol.SameStep after.protocol where
  window_eq := congrArg Overview.window same
  tolerance_eq := congrArg Overview.tolerance same
  inStep_eq := congrArg Overview.inStep same

/-- Other structures of the same number. -/
theorem withStructures (standing : c.Standing settings count fits)
    {structures : List (RigidStructure shape α)} (length_eq : structures.length = count)
    (each : ∀ part body, structures[part]? = some body → done part body) :
    Standing settings count done { c with structures } where
  settings_eq := standing.settings_eq
  serial := standing.serial
  length_eq := length_eq
  each := each

/-- Structures that are changed in the same way. -/
theorem mapStructures (standing : c.Standing settings count fits)
    {change : RigidStructure shape α → RigidStructure shape α}
    (changes : ∀ part body, fits part body → done part (change body)) :
    Standing settings count done { c with structures := c.structures.map change } := by
  apply standing.withStructures
  · rw [List.length_map, standing.length_eq]
  · intro part body found
    rw [List.getElem?_map] at found
    rcases Option.map_eq_some_iff.mp found with ⟨before, inside, rfl⟩
    exact changes part before (standing.each part before inside)

/-- One structure that is changed, and what becomes of the others' property. -/
theorem changeOne (standing : c.Standing settings count fits) {number : Nat}
    {change : RigidStructure shape α → RigidStructure shape α}
    (changes : ∀ body, fits number body → done number (change body))
    (others : ∀ part body, part ≠ number → fits part body → done part body) :
    Standing settings count done
      { c with structures := c.structures.modify number change } := by
  apply standing.withStructures
  · rw [List.length_modify, standing.length_eq]
  · intro part body found
    rw [List.getElem?_modify] at found
    by_cases here : number = part
    · subst here
      simp only [if_true] at found
      rcases Option.map_eq_some_iff.mp found with ⟨before, inside, rfl⟩
      exact changes before (standing.each number before inside)
    · simp only [if_neg here, Option.map_eq_map, Option.map_id'] at found
      exact others part body (Ne.symm here) (standing.each part body found)

/-- A structure that is changed. -/
theorem modifyStructure (standing : c.Standing settings count fits) {number : Nat}
    {change : RigidStructure shape α → RigidStructure shape α}
    (changes : ∀ body, fits number body → fits number (change body)) :
    Standing settings count fits
      { c with structures := c.structures.modify number change } :=
  standing.changeOne changes fun _ _ _ fit => fit

/-- What work on each structure has done once it is finished. -/
theorem of_finished (standing : c.Standing settings count fits)
    {structures : List (RigidStructure shape α)}
    (finished : Finished (fun part _ after => done part after) 0 c.structures structures) :
    Standing settings count done { c with structures } := by
  rcases finished.getElem with ⟨length_eq, all⟩
  apply standing.withStructures (length_eq.trans standing.length_eq)
  intro part body found
  rcases List.getElem?_eq_some_iff.mp found with ⟨inside, rfl⟩
  have finished := all part (length_eq ▸ inside) inside
  rwa [Nat.zero_add] at finished

/-- What work on each structure has done where it stops. -/
theorem of_stopped (standing : c.Standing settings count fits)
    {structures : List (RigidStructure shape α)}
    (halted : Stopped (fun part _ after => done part after) (fun part _ after => stop part after) 0
      c.structures structures) :
    Standing settings count (fun part body => done part body ∨ stop part body ∨ fits part body)
        { c with structures } ∧
      ∃ part body, structures[part]? = some body ∧ stop part body := by
  constructor
  · apply standing.withStructures (halted.exists_stop.1.trans standing.length_eq)
    intro part body found
    have all := halted.forall_getElem?
      (fun part body => done part body ∨ stop part body ∨ fits part body)
      (fun _ _ _ => Or.inl) (fun _ _ _ last => Or.inr (Or.inl last))
      (fun part body inside => by
        rw [Nat.zero_add]
        exact Or.inr (Or.inr (standing.each part body inside))) part body found
    rwa [Nat.zero_add] at all
  · rcases halted.exists_getElem? with ⟨part, -, body, found, last⟩
    rw [Nat.zero_add] at last
    exact ⟨part, body, found, last⟩

/-- Work on each structure, given what it does to one of them. -/
theorem ends_forEachStructure (standing : c.Standing settings count fits)
    (done stop : Nat → RigidStructure shape α → Prop)
    {action : Nat → Action α (RigidStructure shape α) Unit}
    (each : ∀ part body, fits part body →
      (action part).Ends body (fun _ after => done part after) fun after => stop part after)
    {post : Unit → Coordinator shape α → Prop} {stopped : Coordinator shape α → Prop}
    (good : ∀ structures, Standing settings count done { c with structures } →
      post () { c with structures })
    (bad : ∀ structures,
      Standing settings count (fun part body => done part body ∨ stop part body ∨ fits part body)
        { c with structures } →
      (∃ part body, structures[part]? = some body ∧ stop part body) →
        stopped { c with structures }) :
    (forEachStructure action).Ends c post stopped := by
  apply Coordinator.ends_forEachStructure (fun part _ after => done part after)
    fun part _ after => stop part after
  · intro part body member
    exact each part body (standing.each part body (List.mk_mem_zipIdx_iff_getElem?.mp member))
  · exact fun structures finished => good structures (standing.of_finished finished)
  · intro structures halted
    rcases standing.of_stopped halted with ⟨left, last⟩
    exact bad structures left last

/-- Work on each structure with a state that the structures share. -/
theorem ends_forStructures (standing : c.Standing settings count fits)
    (done stop : Nat → RigidStructure shape α → Prop)
    {action : Nat → Action α (RigidStructure shape α × σ) Unit}
    (each : ∀ part body state, fits part body → (action part).Ends (body, state)
      (fun _ after => done part after.1) fun after => stop part after.1) (state : σ) :
    (forStructures action).Ends (c, state)
      (fun _ after => Standing settings count done after.1 ∧ after.1.protocol = c.protocol)
      fun after => after.1.protocol = c.protocol ∧
        Standing settings count (fun part body => done part body ∨ stop part body ∨ fits part body)
          after.1 ∧ ∃ part body, after.1.structures[part]? = some body ∧ stop part body := by
  apply Coordinator.ends_forStructures (fun part _ after => done part after)
    (fun part _ after => stop part after) (fun _ _ => True) fun _ => True
  · intro part body state member _
    have fit := standing.each part body (List.mk_mem_zipIdx_iff_getElem?.mp member)
    exact (each part body state fit).imp (fun _ _ finished => ⟨finished, trivial⟩)
      fun _ failed => ⟨failed, trivial⟩
  · trivial
  · exact fun structures _ finished _ => ⟨standing.of_finished finished, rfl⟩
  · exact fun structures _ halted _ => ⟨rfl, standing.of_stopped halted⟩

/-! ## Mass properties and the opening of a step -/

variable [Scalar α]

/-- A structure whose mass properties have been computed from its positions. -/
def Weighed (order : Nat) (fits : Nat → RigidStructure shape α → Prop) (part : Nat)
    (after : RigidStructure shape α) : Prop :=
  ∃ body mass, fits part body ∧ (body.massAt body.positions order).alone = .ok mass ∧
    after = body.withMass mass

/-- The mass properties of some structure cannot be computed from its positions. -/
def Unweighable (order : Nat) (fits : Nat → RigidStructure shape α → Prop)
    (c : Coordinator shape α) : Prop :=
  ∃ part body, c.structures[part]? = some body ∧ fits part body ∧
    ∀ mass, (body.massAt body.positions order).alone ≠ .ok mass

section

variable (weighs : ∀ part body mass, fits part body →
  (body.massAt body.positions settings.quadratureOrder).alone = .ok mass →
    fits part (body.withMass mass))

include weighs

omit weighs in
theorem ends_updateMass (standing : c.Standing settings count fits) :
    (updateMass : Work shape α Unit).Ends c
      (fun _ after => Standing settings count (Weighed settings.quadratureOrder fits) after ∧
        after.protocol = c.protocol)
      fun after => Standing settings count
        (fun part body => Weighed settings.quadratureOrder fits part body ∨ fits part body) after ∧
          after.protocol = c.protocol ∧ Unweighable settings.quadratureOrder fits after := by
  rw [updateMass]
  simp only [ends_bind, ends_get]
  apply standing.ends_forEachStructure (Weighed settings.quadratureOrder fits) fun part body =>
    fits part body ∧
      ∀ mass, (body.massAt body.positions settings.quadratureOrder).alone ≠ .ok mass
  · intro part body fit
    simp only [ends_bind, ends_get, ends_attempt, ends_collective, ends_set]
    rw [standing.settings_eq]
    cases computed : (body.massAt body.positions settings.quadratureOrder).alone with
    | error stop =>
        refine ⟨fit, fun mass found => ?_⟩
        cases found
    | ok mass =>
        exact ⟨body, mass, fit, computed, rfl⟩
  · exact fun _ weighed => ⟨weighed, rfl⟩
  · intro structures weighed unweighable
    refine ⟨weighed.imp fun _ _ => ?_, rfl, unweighable⟩
    rintro (weighed | fit | fit)
    · exact Or.inl weighed
    · exact Or.inr fit.1
    · exact Or.inr fit

theorem of_weighed (weighed : c.Standing settings count
    fun part body => Weighed settings.quadratureOrder fits part body ∨ fits part body) :
    c.Standing settings count fits := by
  apply weighed.imp
  rintro part _ (⟨body, mass, fit, computed, rfl⟩ | fit)
  · exact weighs part body mass fit computed
  · exact fit

/-- A preparation keeps what computing mass properties keeps; the first one computes them. -/
theorem ends_prepare (standing : c.Standing settings count fits) :
    (prepare : Work shape α Unit).Ends c
      (fun _ after => Standing settings count fits after ∧ after.protocol = c.protocol ∧
        (c.initialized = false →
          Standing settings count (Weighed settings.quadratureOrder fits) after))
      fun after => Standing settings count fits after ∧ after.protocol = c.protocol ∧
        Unweighable settings.quadratureOrder fits after := by
  rw [prepare]
  simp only [ends_bind, ends_get]
  split
  next initialized =>
    refine ⟨standing, rfl, fun first => ?_⟩
    rw [first] at initialized
    cases initialized
  next =>
    simp only [ends_bind, ends_get, ends_tell, ends_modify]
    apply standing.ends_updateMass.imp
    · rintro _ after ⟨weighed, same⟩
      have kept := of_weighed weighs (weighed.imp fun _ _ => Or.inl)
      exact ⟨kept.congr rfl rfl rfl, same, fun _ => weighed.congr rfl rfl rfl⟩
    · exact fun _ stopped => ⟨of_weighed weighs stopped.1, stopped.2⟩

/--
Opening a step opens every structure, or leaves all of them as they were.  It stops
only in a step, or if some mass properties cannot be computed.
-/
theorem ends_preprocess (standing : c.Standing settings count fits) {current new : α} :
    (preprocess current new : Work shape α Unit).Ends c
      (fun _ after => Standing settings count
          (fun part after => ∃ body, Weighed settings.quadratureOrder fits part body ∧
            after = body.opened (.between current new)) after ∧
        c.protocol.phase.inStep = false ∧
          after.protocol = c.protocol.opened (.between current new))
      fun after => Standing settings count fits after ∧
        (c.protocol.phase.inStep = true → after.protocol = c.protocol) ∧
          (c.protocol.phase.inStep = false →
            Unweighable settings.quadratureOrder fits after) := by
  rw [preprocess]
  simp only [ends_bind, ends_get]
  apply (ends_prepare weighs standing).imp _ fun _ stopped =>
    ⟨stopped.1, fun _ => stopped.2.1, fun _ => stopped.2.2⟩
  rintro _ prepared ⟨kept, same, first⟩
  rw [ends_attempting, ends_committing, same]
  cases begun : c.protocol.beginStep current new with
  | error violation =>
      refine ⟨kept, fun _ => rfl, fun outside => ?_⟩
      have accepted := Phase.after_preprocess_eq_ok_iff.mpr ⟨outside, rfl⟩
      cases begun.symm.trans (StepProtocol.beginStep_eq_ok_iff.mpr ⟨_, accepted, rfl⟩)
  | ok outcome =>
      rcases StepProtocol.beginStep_eq_ok_iff.mp begun with ⟨next, accepted, rfl⟩
      rcases Phase.after_preprocess_eq_ok_iff.mp accepted with ⟨outside, rfl⟩
      -- What remains to be done once all masses have been computed.
      have opens {weighed after : Coordinator shape α}
          (masses : weighed.Standing settings count (Weighed settings.quadratureOrder fits))
          (settings_eq : after.settings = weighed.settings) (seat : after.seat = weighed.seat)
          (structures : after.structures =
            weighed.structures.map (·.opened (.between current new))) :
          after.Standing settings count (fun part after => ∃ body,
            Weighed settings.quadratureOrder fits part body ∧
              after = body.opened (.between current new)) :=
        (masses.mapStructures fun _ body fit => ⟨body, fit, rfl⟩).congr settings_eq seat structures
      simp only
      split
      next =>
        have ready : Standing settings count fits
            { prepared with protocol := c.protocol.opened (.between current new) } :=
          kept.congr rfl rfl rfl
        rw [ends_bind]
        apply ready.ends_updateMass.imp
        · rintro _ weighed ⟨masses, protocol⟩
          simp only [ends_bind, ends_modify, ends_get, ends_collective, alone_assemble]
          exact ⟨opens masses rfl rfl rfl, outside, protocol⟩
        · rintro after ⟨weighed, -, unweighable⟩
          refine ⟨of_weighed weighs weighed, fun inside => ?_, fun _ => unweighable⟩
          rw [outside] at inside
          cases inside
      next computed =>
        have masses := first (by simpa using computed)
        simp only [ends_bind, ends_modify, ends_get, ends_collective, alone_assemble]
        exact ⟨opens masses rfl rfl rfl, outside, rfl⟩

end

/-! ## Moving and closing -/

/-- Once an update of the positions is accepted, it is done for all structures, or stops at one. -/
theorem ends_advance_accepted (standing : c.Standing settings count fits) {rule : AdvanceRule}
    {current new : α} (checked : c.checkTimes rule current new = .ok ())
    {outcome : StepOutcome α (StepWindow α)} (accepted : c.protocol.advance rule = .ok outcome)
    (moves : ∀ part body, fits part body →
      (advancing c rule outcome.value part).Ends body (fun _ after => done part after)
        fun after => stop part after) :
    (advance rule current new : Work shape α Unit).Ends c
      (fun _ after => Standing settings count done after ∧ after.protocol = outcome.protocol)
      fun after => after.protocol = outcome.protocol ∧
        Standing settings count (fun part body => done part body ∨ stop part body ∨ fits part body)
          after ∧ ∃ part body, after.structures[part]? = some body ∧ stop part body := by
  have ready : Standing settings count fits { c with protocol := outcome.protocol } :=
    standing.congr rfl rfl rfl
  have works : (forEachStructure (advancing c rule outcome.value)).Ends
      { c with protocol := outcome.protocol }
      (fun _ after => Standing settings count done after ∧ after.protocol = outcome.protocol)
      fun after => after.protocol = outcome.protocol ∧
        Standing settings count (fun part body => done part body ∨ stop part body ∨ fits part body)
          after ∧ ∃ part body, after.structures[part]? = some body ∧ stop part body := by
    apply ready.ends_forEachStructure done stop moves
    · exact fun structures moved => ⟨moved, rfl⟩
    · exact fun structures left stopped => ⟨rfl, left, stopped⟩
  rw [advance]
  simp only [ends_bind, ends_get, ends_checking, ends_attempting, ends_committing, checked,
    accepted]
  cases rule with
  | forwardEuler | midpoint =>
      simp only [ends_bind, ends_tell]
      exact works
  | trapezoidal =>
      rcases StepProtocol.advance_eq_ok_iff.mp accepted with ⟨next, _, impossible, -⟩
      exact absurd impossible Phase.after_trapezoidal_ne_ok

/-- Positions are updated for every structure, or for some of them. -/
theorem ends_advance (standing : c.Standing settings count fits) {rule : AdvanceRule}
    {current new : α}
    (moves : ∀ window, c.protocol.window = some window → ∀ part body, fits part body →
      (advancing c rule window part).Ends body (fun _ after => done part after)
        fun after => fits part after)
    (weaker : ∀ part body, done part body → fits part body) :
    (advance rule current new : Work shape α Unit).Ends c
      (fun _ after => Standing settings count done after ∧ c.protocol.SameStep after.protocol)
      fun after => Standing settings count fits after ∧ c.protocol.SameStep after.protocol := by
  cases checked : c.checkTimes rule current new with
  | error violation =>
      rw [advance]
      simp only [ends_bind, ends_get, ends_checking, checked]
      exact ⟨standing, rfl, rfl, rfl⟩
  | ok _ =>
      cases accepted : c.protocol.advance rule with
      | error violation =>
          rw [advance]
          simp only [ends_bind, ends_get, ends_checking, ends_attempting, ends_committing, checked,
            accepted]
          exact ⟨standing, rfl, rfl, rfl⟩
      | ok outcome =>
          have same := StepProtocol.sameStep_of_advance accepted
          have opened : c.protocol.window = some outcome.value := by
            rcases StepProtocol.advance_eq_ok_iff.mp accepted with ⟨_, _, -, opened, -, rfl⟩
            exact opened
          apply (standing.ends_advance_accepted checked accepted (moves _ opened)).imp
          · rintro _ after ⟨moved, protocol⟩
            exact ⟨moved, protocol ▸ same⟩
          · rintro after ⟨protocol, left, -⟩
            refine ⟨left.imp fun part body => ?_, protocol ▸ same⟩
            rintro (moved | fit | fit)
            · exact weaker part body moved
            · exact fit
            · exact fit

omit [Scalar α] in
/-- Closing a step commits every structure; or nothing happens, or it stops at a structure. -/
theorem ends_postprocess (standing : c.Standing settings count fits)
    (commits : ∀ objectName forces part body, fits part body →
      (commit objectName forces part).Ends body (fun _ after => done part after)
        fun after => stop part after) :
    (postprocess : Work shape α Unit).Ends c
      (fun _ after => Standing settings count done after)
      fun after => after = c ∨
        Standing settings count (fun part body => done part body ∨ stop part body ∨ fits part body)
          after ∧ ∃ part body, after.structures[part]? = some body ∧ stop part body := by
  have works (before : Coordinator shape α) (settings_eq : before.settings = c.settings)
      (seat : before.seat = c.seat) (structures : before.structures = c.structures)
      (objectName : String) (forces : Option (List (NodalField α))) :
      (forEachStructure (commit objectName forces)).Ends before
        (fun _ after => Standing settings count done after)
        fun after => after = c ∨
          Standing settings count
              (fun part body => done part body ∨ stop part body ∨ fits part body) after ∧
            ∃ part body, after.structures[part]? = some body ∧ stop part body := by
    apply (standing.congr settings_eq seat structures).ends_forEachStructure done stop
      (commits objectName forces)
    · exact fun structures committed => committed
    · exact fun structures left stopped => Or.inr ⟨left, stopped⟩
  rw [postprocess]
  simp only [ends_bind, ends_get, ends_attempting, ends_committing]
  cases c.protocol.endStep with
  | error violation =>
      simp
  | ok outcome =>
      simp only [ends_modify]
      cases c.currentForces <;> cases c.newForces <;>
        simp only [ends_bind, ends_get, ends_modify, ends_collective, alone_release, ends_map,
          ends_pure] <;>
        apply works <;> rfl

/-! ## Calls that neither open nor close a step -/

/-- Setting the velocity of a structure, or of all of them. -/
theorem ends_setting (standing : c.Standing settings count fits) {call : Call shape α}
    (sets : call.Sets) (flow : FlowTransfer α σ) (state : σ) :
    (call.serve flow).Ends (c, state)
      (fun _ after => (∀ part body velocity, call.Gives part body.velocity velocity →
          fits part body → fits part { body with velocity }) →
        Standing settings count fits after.1 ∧ after.1.protocol = c.protocol)
      fun after => Standing settings count fits after.1 ∧ after.1.protocol = c.protocol := by
  cases call with
  | updateVelocity number dofs =>
      rw [Call.serve, ends_first, updateVelocity, ends_bind, ends_checking]
      split
      · rw [changeStructure, ends_modify]
        intro gives
        refine ⟨standing.modifyStructure fun body fit => ?_, rfl⟩
        exact gives number body _ ⟨rfl, rfl⟩ fit
      · exact ⟨standing, rfl⟩
  | setVelocity number velocity =>
      rw [Call.serve, ends_first, setVelocity, ends_bind, ends_checking]
      split
      · simp only [ends_bind, ends_get]
        split
        · exact ⟨standing, rfl⟩
        · rw [ends_bind, ends_checking]
          split
          · rw [changeStructure, ends_modify]
            intro gives
            refine ⟨standing.modifyStructure fun body fit => ?_, rfl⟩
            exact gives number body _ ⟨rfl, rfl⟩ fit
          · exact ⟨standing, rfl⟩
      · exact ⟨standing, rfl⟩
  | restore record =>
      rw [Call.serve, ends_first, restore, ends_bind, ends_get]
      split
      · exact ⟨standing, rfl⟩
      · cases checked : record.checkCompatible c.name c.count with
        | error e =>
            simp only [ends_attempt, ends_refuse, and_true]
            exact standing
        | ok _ =>
            simp only [ends_bind, ends_modify, ends_tell, and_true]
            intro gives
            have lengths : record.velocities.length = c.structures.length :=
              length_of_checkCompatible checked
            apply standing.withStructures
            · rw [List.length_zipWith, lengths, Nat.min_self, standing.length_eq]
            · intro part body found
              rcases List.getElem?_zipWith_eq_some.mp found with
                ⟨before, velocity, inside, given, rfl⟩
              exact gives part before _ ⟨velocity, given, rfl⟩ (standing.each part before inside)
  | _ =>
      exact sets.elim

/--
A call that neither opens nor closes a step keeps a property of the structures, if
the computation of mass properties, the updates of positions, the sampling of the
flow and the velocities that the call sets keep it.
-/
theorem ends_serve_between_of (standing : c.Standing settings count fits)
    (ignores : IgnoresSolver fits)
    (weighs : ∀ part body mass, fits part body →
      (body.massAt body.positions settings.quadratureOrder).alone = .ok mass →
        fits part (body.withMass mass))
    {call : Call shape α}
    (moves : ∀ rule current new, call = .advance rule current new → ∀ window,
      c.protocol.window = some window → ∀ part body, fits part body →
        (advancing c rule window part).Ends body (fun _ after => fits part after)
          fun after => fits part after)
    (flow : FlowTransfer α σ) (state : σ)
    (samples : ∀ time, (interpolate flow time).Ends (c, state)
      (fun _ after => Standing settings count fits after.1 ∧ c.protocol.SameStep after.1.protocol)
      fun after => Standing settings count fits after.1 ∧ c.protocol.SameStep after.1.protocol)
    (notOpening : ∀ current new, call ≠ .preprocess current new)
    (notClosing : call ≠ .postprocess) :
    (call.serve flow).Ends (c, state)
      (fun _ after => (∀ part body velocity, call.Gives part body.velocity velocity →
          fits part body → fits part { body with velocity }) →
        Standing settings count fits after.1 ∧ c.protocol.SameStep after.1.protocol)
      fun after => Standing settings count fits after.1 ∧ c.protocol.SameStep after.1.protocol := by
  have same {protocol : StepProtocol α} (unchanged : protocol = c.protocol) :
      c.protocol.SameStep protocol := by
    rw [unchanged]
    exact ⟨rfl, rfl, rfl⟩
  -- Work that the property cannot see.
  have hidden {action : Action α (Coordinator shape α × σ) Unit}
      (ends : action.Ends (c, state)
        (fun _ after => outline (fun body part => fits part body) after.1 =
          outline (fun body part => fits part body) c)
        fun after => outline (fun body part => fits part body) after.1 =
          outline (fun body part => fits part body) c) :
      action.Ends (c, state)
        (fun _ after => (∀ part body velocity, call.Gives part body.velocity velocity →
            fits part body → fits part { body with velocity }) →
          Standing settings count fits after.1 ∧ c.protocol.SameStep after.1.protocol)
        fun after =>
          Standing settings count fits after.1 ∧ c.protocol.SameStep after.1.protocol := by
    apply ends.imp
    · exact fun _ after shown _ => ⟨standing.of_outline shown, sameStep_of_outline shown⟩
    · exact fun after shown => ⟨standing.of_outline shown, sameStep_of_outline shown⟩
  cases call with
  | preprocess current new =>
      exact absurd rfl (notOpening current new)
  | postprocess =>
      exact absurd rfl notClosing
  | prepare =>
      rw [Call.serve, ends_first]
      apply (ends_prepare weighs standing).imp
      · exact fun _ after kept _ => ⟨kept.1, same kept.2.1⟩
      · exact fun after kept => ⟨kept.1, same kept.2.1⟩
  | advance rule current new =>
      rw [Call.serve, ends_first]
      apply (standing.ends_advance (moves rule current new rfl) fun _ _ fit => fit).imp
      · exact fun _ after kept _ => kept
      · exact fun after kept => kept
  | updateVelocity number dofs | setVelocity number velocity | restore record =>
      refine (standing.ends_setting ?_ flow state).imp ?_ ?_
      · trivial
      · exact fun _ after kept gives => ⟨(kept gives).1, same (kept gives).2⟩
      · exact fun after kept => ⟨kept.1, same kept.2⟩
  | interpolate time =>
      exact (samples time).imp (fun _ _ kept _ => kept) fun _ kept => kept
  | changeForces time change =>
      apply hidden
      exact fixes_first (fixes_bind fixes_changeForces fun _ => fixes_pure ()) (c, state)
  | _ =>
      apply hidden
      refine (fixes_serve_of_exchanges ignores.hidesSolver ?_ flow (c, state)).imp ?_ ?_
      · trivial
      · exact fun _ _ same => outline_eq_of_overview_eq same
      · exact fun _ same => outline_eq_of_overview_eq same

/-- Sampling the flow keeps what its velocity does not matter for. -/
theorem ends_interpolate (standing : c.Standing settings count fits)
    (ignores : IgnoresExchange fits) {flow : FlowTransfer α σ} {time : α} {state : σ} :
    (interpolate flow time).Ends (c, state)
      (fun _ after => Standing settings count fits after.1 ∧ c.protocol.SameStep after.1.protocol)
      fun after => Standing settings count fits after.1 ∧ c.protocol.SameStep after.1.protocol := by
  have shown (after : Coordinator shape α × σ)
      (same : overview (fun body part => fits part body) after.1 =
        overview (fun body part => fits part body) c) :
      Standing settings count fits after.1 ∧ c.protocol.SameStep after.1.protocol :=
    ⟨standing.of_outline (outline_eq_of_overview_eq same),
      sameStep_of_outline (outline_eq_of_overview_eq same)⟩
  apply (ends_interpolate_in_step ignores.hidesExchange fun _ _ _ => ignores.hidesFlow).imp
  · exact fun _ after same => shown after same
  · exact fun after same => shown after same

/--
A call that neither opens nor closes a step keeps a property of the structures that
data of flow and solver does not matter for.
-/
theorem ends_serve_between (standing : c.Standing settings count fits)
    (ignores : IgnoresExchange fits)
    (weighs : ∀ part body mass, fits part body →
      (body.massAt body.positions settings.quadratureOrder).alone = .ok mass →
        fits part (body.withMass mass))
    (moves : ∀ rule window, c.protocol.window = some window → ∀ part body, fits part body →
      (advancing c rule window part).Ends body (fun _ after => fits part after)
        fun after => fits part after)
    {call : Call shape α} (notOpening : ∀ current new, call ≠ .preprocess current new)
    (notClosing : call ≠ .postprocess) (flow : FlowTransfer α σ) (state : σ) :
    (call.serve flow).Ends (c, state)
      (fun _ after => (∀ part body velocity, call.Gives part body.velocity velocity →
          fits part body → fits part { body with velocity }) →
        Standing settings count fits after.1 ∧ c.protocol.SameStep after.1.protocol)
      fun after => Standing settings count fits after.1 ∧ c.protocol.SameStep after.1.protocol :=
  standing.ends_serve_between_of ignores.ignoresSolver weighs (fun rule _ _ _ => moves rule) flow state
    (fun _ => standing.ends_interpolate ignores) notOpening notClosing

end Standing

/-! ## Registration -/

section

variable [Scalar α] {settings : Settings α} {descriptions : List (StructureDescription shape α)}
  {seat : Seat}

/-- Registered structures are set up from their descriptions, and no step is open. -/
theorem standing_of_register (serial : seat.size = 1) {c : Coordinator shape α}
    (registered : (register settings descriptions seat).alone = .ok c) :
    c.Standing settings descriptions.length (fun part body => ∃ description,
        descriptions[part]? = some description ∧ setUp description seat = .ok body) ∧
      c.protocol.phase.inStep = false := by
  rcases exists_bodies_of_register registered with ⟨bodies, made, rfl⟩
  refine ⟨⟨rfl, serial, made.length_eq.symm, ?_⟩, rfl⟩
  intro part body found
  rcases List.getElem?_eq_some_iff.mp found with ⟨inside, rfl⟩
  have described : part < descriptions.length := made.length_eq ▸ inside
  exact ⟨descriptions[part], List.getElem?_eq_getElem described, made.get described inside⟩

end

end Coordinator

end ImmersedBody
