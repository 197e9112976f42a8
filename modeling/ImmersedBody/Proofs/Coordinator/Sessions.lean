import ImmersedBody.Proofs.Coordinator.SharedExchange

/-!
# Sessions of a team

A `Program` says which call of a coordinator comes next, given what the calls
before have led to.  All ranks carry out one program, with the same operands.
Composites come from the coordinator and are named by their numbers; their parts
are filled from values that do not depend on the rank, and a part is used for
the structure with its number only.

What a call leads to is told by a `Report`, which holds all that a program can
ask for without looking at the entries of fields.  The main theorem is
`joint_session`: the members of a team make the same reports and share the
coordinator and the composites after every call.
-/

namespace ImmersedBody

open ImmersedBody.Action

variable {α β : Type} {shape : Shape}

namespace CompositeField

/-- Writes all entries that the rank owns in the part with a number. -/
def fillPart (composite : CompositeField α) (part : Nat) (value : Nat → α) : CompositeField α :=
  ⟨composite.parts.modify part (·.fill value)⟩

/-- Fills parts one after the other. -/
def fill (composite : CompositeField α) (values : List (Nat × (Nat → α))) : CompositeField α :=
  values.foldl (fun composite (part, value) => composite.fillPart part value) composite

end CompositeField

/-- A call of a coordinator whose operands do not depend on the rank. -/
inductive Command (shape : Shape) (α : Type) where
  | prepare
  | listen (listener : Nat)
  | createComposite
  | fill (composite : Nat) (values : List (Nat × (Nat → α)))
  | preprocess (current new : α)
  | postprocess
  | fluidCalls (current new : α) (cycle : Nat)
  | requestInterpolation (time : α)
  | interpolate (time : α)
  | readVelocities (composite : Nat) (time factor : α)
  | advance (rule : AdvanceRule) (current new : α)
  | skipForce (time : α)
  | setForce (composite : Nat) (time factor : α)
  /-- Fills parts of the composite that is handed out. -/
  | changeForces (time : α) (values : List (Nat × (Nat → α)))
  | computeForce (part composite : Nat)
  | setBodyVelocity (part : Nat) (dofs : Vector α shape.dim.rigidSize) (composite : Nat)
  | updateVelocity (part : Nat) (dofs : Vector α shape.dim.rigidSize)
  | setVelocity (part : Nat) (velocity : RigidVelocity α)
  | spread (time : α)
  | restartRecord
  | restore (record : RestartRecord α)

/-- What a call returns. -/
inductive Answer (shape : Shape) (α : Type) where
  | done
  | netForce (total : Option (Vector α shape.dim.rigidSize))
  /-- Whether a composite was handed out. -/
  | handedOut (found : Bool)
  | fluidCalls (calls : List (FluidCall α))
  | record (record : RestartRecord α)

/-- What one rank keeps between calls. -/
structure Session (shape : Shape) (α : Type) where
  coordinator : Coordinator shape α
  /-- The forces that the rank has spread. -/
  tally : SpreadTally α
  /-- The composites that were created, in this order. -/
  composites : List (CompositeField α)

/-- What a call has led to, as far as it is no matter of single entries. -/
structure Report (shape : Shape) (α : Type) where
  outcome : Except (Stop α) (Answer shape α)
  protocol : StepProtocol α
  /-- The mass properties at the current and the half time, and the rigid velocities. -/
  bodies : List (MassProperties α × MassProperties α × TimeLevels (RigidVelocity α))

/-- Which call comes next, given what the calls before have led to. -/
inductive Program (shape : Shape) (α : Type) where
  | finished
  | call (command : Command shape α) (next : Report shape α → Program shape α)

namespace Session

/-- Work on the coordinator. -/
def work (work : Coordinator.Work shape α β) : Action α (Session shape α) β :=
  Action.of fun session => (work.on session.coordinator).bind fun (outcome, coordinator) =>
    .done (outcome, { session with coordinator })

/-- Work on the coordinator with the flow. -/
def exchange (action : Action α (Coordinator shape α × SpreadTally α) β) :
    Action α (Session shape α) β :=
  Action.of fun session =>
    (action.on (session.coordinator, session.tally)).bind fun (outcome, coordinator, tally) =>
      .done (outcome, { session with coordinator, tally })

/-- Work with the composite that has a number.  Without one there is nothing to do. -/
def withComposite (number : Nat)
    (action : CompositeField α → Action α (Session shape α) (Answer shape α)) :
    Action α (Session shape α) (Answer shape α) := do
  match (← get).composites[number]? with
  | some composite => action composite
  | none => return .done

/-- Puts another composite in the place of the one with a number. -/
def store (number : Nat) (composite : CompositeField α) : Action α (Session shape α) Unit :=
  modify fun session => { session with composites := session.composites.set number composite }

/-- What a call has led to. -/
def report (session : Session shape α) (outcome : Except (Stop α) (Answer shape α)) :
    Report shape α where
  outcome := outcome
  protocol := session.coordinator.protocol
  bodies := session.coordinator.structures.map fun body =>
    (body.currentMass, body.halfMass, body.velocity)

end Session

/-- Carries out a call in a velocity field. -/
def Command.serve [Scalar α] (field : Vec3 α → α → Vec3 α) :
    Command shape α → Action α (Session shape α) (Answer shape α)
  | prepare => do
      Session.work Coordinator.prepare
      return .done
  | listen listener => do
      Session.work (modify (·.listen listener))
      return .done
  | createComposite => do
      let composite ← Action.collective (← get).coordinator.createComposite
      modify fun session => { session with composites := session.composites ++ [composite] }
      return .done
  | fill number values =>
      Session.withComposite number fun composite => do
        Session.store number (composite.fill values)
        return .done
  | preprocess current new => do
      Session.work (Coordinator.preprocess current new)
      return .done
  | postprocess => do
      Session.work Coordinator.postprocess
      return .done
  | fluidCalls current new cycle => do
      return .fluidCalls ((← get).coordinator.fluidCalls current new cycle)
  | requestInterpolation time => do
      Session.work (Coordinator.requestInterpolation time)
      return .done
  | interpolate time => do
      Session.exchange (Coordinator.interpolate (AnalyticFlow.transfer shape.dim field) time)
      return .done
  | readVelocities number time factor =>
      Session.withComposite number fun composite => do
        let c := (← get).coordinator
        Action.part (fun _ => composite)
          (fun composite session =>
            { session with composites := session.composites.set number composite })
          (c.readVelocities time factor)
        return .done
  | advance rule current new => do
      Session.work (Coordinator.advance rule current new)
      return .done
  | skipForce time => do
      Session.work (Coordinator.skipForce time)
      return .done
  | setForce number time factor =>
      Session.withComposite number fun composite => do
        Session.work (Coordinator.setForce composite time factor)
        return .done
  | changeForces time values => do
      let forces ← Session.work (Coordinator.changeForces time (·.fill values))
      return .handedOut forces.isSome
  | computeForce part number =>
      Session.withComposite number fun composite =>
        -- A structure that does not exist has no part; it is refused whatever the force is.
        match composite.parts[part]? <|> composite.parts.head? with
        | some force => do
            let total ← Session.work (Coordinator.computeForce part force)
            return .netForce total
        | none => return .done
  | setBodyVelocity part dofs number =>
      Session.withComposite number fun composite =>
        Action.of fun session =>
          ((Coordinator.setBodyVelocity part dofs).on (session.coordinator, composite)).bind
            fun (outcome, coordinator, composite) =>
              .done (outcome.map fun _ => .done, { session with
                coordinator, composites := session.composites.set number composite })
  | updateVelocity part dofs => do
      Session.work (Coordinator.updateVelocity part dofs)
      return .done
  | setVelocity part velocity => do
      Session.work (Coordinator.setVelocity part velocity)
      return .done
  | spread time => do
      Session.exchange (Coordinator.spread (AnalyticFlow.transfer shape.dim field) time)
      return .done
  | restartRecord => do
      return .record (← get).coordinator.restartRecord
  | restore record => do
      Session.work (Coordinator.restore record)
      return .done

namespace Program

variable [Scalar α]

/--
Carries out a program, with the report and what the rank keeps after every call.
A call that fails is reported like any other; a fault ends the program.
-/
def run (field : Vec3 α → α → Vec3 α) :
    Program shape α → Session shape α → Task α (List (Report shape α × Session shape α))
  | finished, _ => .done []
  | call command next, session =>
    ((command.serve field).on session).bind fun (outcome, after) =>
      let report := after.report outcome
      match outcome with
      | .error (.fault _) => .done [(report, after)]
      | _ => ((next report).run field after).bind fun log => .done ((report, after) :: log)

/-- Registers structures on a rank and carries out a program. -/
def session (settings : Settings α) (descriptions : List (StructureDescription shape α))
    (field : Vec3 α → α → Vec3 α) (program : Program shape α) (seat : Seat) :
    Collective α (List (Report shape α × Session shape α)) := do
  let coordinator ← Coordinator.register settings descriptions seat
  ExceptT.lift (program.run field ⟨coordinator, .empty, []⟩)

end Program

/-! ## Shared sessions -/

variable [Scalar α] {p : Nat} {field : Vec3 α → α → Vec3 α}
variable {settings : Settings α} {descriptions : List (StructureDescription shape α)}

/-- Each member of a team holds its part of one session. -/
structure SharedSession (settings : Settings α)
    (descriptions : List (StructureDescription shape α))
    (sessions : Team p → Session shape α) : Prop where
  coordinator :
    SharedCoordinator settings descriptions fun member => (sessions member).coordinator
  /-- All members have equally many composites. -/
  composites : ∃ places : List Unit,
    Columns (fun _ => SharedComposite descriptions) places fun member =>
      (sessions member).composites

theorem SharedComposite.fillPart {composites : Team p → CompositeField α}
    (composite : SharedComposite descriptions composites) (part : Nat) (value : Nat → α) :
    SharedComposite descriptions fun member => (composites member).fillPart part value :=
  Columns.modify composite (fun _ _ field => field.fill value) part

theorem SharedComposite.fill (values : List (Nat × (Nat → α))) :
    ∀ {composites : Team p → CompositeField α}, SharedComposite descriptions composites →
      SharedComposite descriptions fun member => (composites member).fill values := by
  induction values with
  | nil =>
      exact fun composite => composite
  | cons value values ih =>
      exact fun composite => ih (composite.fillPart value.1 value.2)

/--
Calls that keep a session of a team shared, with the same answer for all members
or the same reason not to answer.
-/
def SharedCall (settings : Settings α) (descriptions : List (StructureDescription shape α))
    (actions : Team p → Action α (Session shape α) β) (post : (Team p → β) → Prop) : Prop :=
  ∀ sessions, SharedSession settings descriptions sessions →
    Joint actions sessions
      (fun values after => post values ∧ SharedSession settings descriptions after)
      (SharedSession settings descriptions)

namespace SharedCall

open Coordinator

variable {actions : Team p → Action α (Session shape α) β} {post : (Team p → β) → Prop}

theorem bind {γ : Type} {f : Team p → β → Action α (Session shape α) γ}
    {post' : (Team p → γ) → Prop} (first : SharedCall settings descriptions actions post)
    (later : ∀ values, post values →
      SharedCall settings descriptions (fun member => f member (values member)) post') :
    SharedCall settings descriptions (fun member => actions member >>= f member) post' := by
  intro sessions shared
  apply joint_bind (first sessions shared)
  rintro values after ⟨good, shared⟩
  exact later values good after shared

theorem answer {values : Team p → β} (good : post values) :
    SharedCall settings descriptions (fun member => pure (values member)) post := by
  intro sessions shared
  apply (joint_pure values).weaken
  rintro _ _ ⟨rfl, rfl⟩
  exact ⟨good, shared⟩

theorem work {works : Team p → Work shape α β}
    (work : SharedWork settings descriptions works post) :
    SharedCall settings descriptions (fun member => Session.work (works member)) post := by
  intro sessions shared
  apply joint_within (fun member coordinator => { sessions member with coordinator })
    (fun _ => rfl)
  apply (work _ shared.coordinator).imp
  · rintro values after ⟨good, coordinator⟩
    exact ⟨good, { shared with coordinator }⟩
  · exact fun after coordinator => { shared with coordinator }

theorem exchange {works : Team p → Action α (Coordinator shape α × SpreadTally α) β}
    (exchange : SharedExchange settings descriptions works post) :
    SharedCall settings descriptions (fun member => Session.exchange (works member)) post := by
  intro sessions shared
  have worked := exchange
    (fun member => ((sessions member).coordinator, (sessions member).tally)) shared.coordinator
  apply joint_within
    (fun member (after : Coordinator shape α × SpreadTally α) =>
      { sessions member with coordinator := after.1, tally := after.2 })
    (fun _ => rfl)
  apply worked.imp
  · rintro values after ⟨good, coordinator⟩
    exact ⟨good, { shared with coordinator }⟩
  · exact fun after coordinator => { shared with coordinator }

/-- Work with a shared composite that may put another one in its place. -/
theorem withComposite {number : Nat}
    {f : Team p → CompositeField α → Action α (Session shape α) (Answer shape α)}
    (each : ∀ sessions, SharedSession settings descriptions sessions →
      ∀ composites, SharedComposite descriptions composites →
        (∀ composites', SharedComposite descriptions composites' →
          SharedSession settings descriptions fun member => { sessions member with
            composites := (sessions member).composites.set number (composites' member) }) →
        Joint (fun member => f member (composites member)) sessions
          (fun values after => Same values ∧ SharedSession settings descriptions after)
          (SharedSession settings descriptions)) :
    SharedCall settings descriptions
      (fun member => Session.withComposite number (f member)) Same := by
  intro sessions shared
  apply joint_bind joint_get
  rintro _ _ ⟨rfl, rfl⟩
  rcases shared.composites with ⟨places, columns⟩
  cases inside : places[number]? with
  | none =>
      simp only [columns.getElem?_eq_none inside]
      exact answer (fun _ => rfl) sessions shared
  | some place =>
      rcases columns.exists_row inside with ⟨composites, found, composite, others⟩
      simp only [found]
      apply each sessions shared composites composite
      intro composites' composite'
      exact { shared with composites := ⟨places, others composites' composite'⟩ }

/-- A call of which nothing but its end is told. -/
theorem silent {actions : Team p → Action α (Session shape α) Unit}
    {post : (Team p → Unit) → Prop} (call : SharedCall settings descriptions actions post) :
    SharedCall settings descriptions
      (fun member => do actions member; return (Answer.done : Answer shape α)) Same :=
  call.bind fun _ _ => answer fun _ => rfl

theorem listen (listener : Nat) :
    SharedCall settings descriptions
      (fun _ : Team p => Session.work (modify (·.listen listener))) fun _ => True := by
  refine work (sharedWork_modify fun coordinators shared => ?_)
  exact { shared with listeners := shared.listeners.map (· ++ [listener]) }

theorem createComposite :
    SharedCall settings descriptions
      (fun _ : Team p => (Command.createComposite : Command shape α).serve field) Same := by
  intro sessions shared
  apply joint_bind joint_get
  rintro _ _ ⟨rfl, rfl⟩
  have zeros : SharedComposite descriptions fun member : Team p =>
      ⟨(sessions member).coordinator.structures.map fun body => .zeros body.layout⟩ :=
    shared.coordinator.structures.map fun _ _ row => .constant 0 row.layout
  apply joint_bind (joint_completes (completes_assemble _))
  rintro _ _ ⟨rfl, rfl⟩
  apply joint_bind (joint_modify _)
  rintro _ _ rfl
  rcases shared.composites with ⟨places, columns⟩
  apply (joint_pure _).weaken
  rintro _ _ ⟨rfl, rfl⟩
  exact ⟨fun _ => rfl, { shared with composites := ⟨places ++ [()], columns.concat zeros⟩ }⟩

theorem fill (number : Nat) (values : List (Nat × (Nat → α))) :
    SharedCall settings descriptions
      (fun _ : Team p => (Command.fill number values : Command shape α).serve field) Same := by
  apply withComposite
  intro sessions shared composites composite others
  apply joint_bind (joint_modify _)
  rintro _ _ rfl
  apply (joint_pure _).weaken
  rintro _ _ ⟨rfl, rfl⟩
  exact ⟨fun _ => rfl, others _ (composite.fill values)⟩

theorem readVelocities (number : Nat) (time factor : α) :
    SharedCall settings descriptions (fun _ : Team p =>
      (Command.readVelocities number time factor : Command shape α).serve field) Same := by
  apply withComposite
  intro sessions shared composites composite others
  apply joint_bind joint_get
  rintro _ _ ⟨rfl, rfl⟩
  rcases exists_readVelocities shared.coordinator composite time factor with
    ⟨afters, after, read | ⟨stop, refusal, refused⟩⟩
  · apply joint_bind
    · exact joint_part read
    rintro _ _ ⟨-, rfl⟩
    apply (joint_pure _).weaken
    rintro _ _ ⟨rfl, rfl⟩
    exact ⟨fun _ => rfl, others _ after⟩
  · apply joint_bind
    · exact joint_part_of_error refusal refused (others _ after)
    · exact fun _ _ => False.elim

theorem setForce (someone : 0 < p) (number : Nat) (time factor : α) :
    SharedCall settings descriptions (fun _ : Team p =>
      (Command.setForce number time factor : Command shape α).serve field) Same := by
  apply withComposite
  intro sessions shared composites composite others
  exact silent (work (sharedWork_setForce someone composite time factor)) sessions shared

theorem changeForces (time : α) (values : List (Nat × (Nat → α))) :
    SharedCall settings descriptions (fun _ : Team p =>
      (Command.changeForces time values : Command shape α).serve field) Same := by
  apply (work (sharedWork_changeForces time fun _ composite => composite.fill values)).bind
  intro forces shared
  apply answer
  rcases shared with without | ⟨composites, found, -⟩
  · intro member
    simp only [without]
  · intro member
    simp only [found]
    rfl

theorem computeForce (someone : 0 < p) (part number : Nat) :
    SharedCall settings descriptions (fun _ : Team p =>
      (Command.computeForce part number : Command shape α).serve field) Same := by
  apply withComposite
  intro sessions shared composites composite others
  have netForce (forces : Team p → NodalField α)
      (fits : ∀ description, descriptions[part]? = some description →
        SharedField description.mesh forces) :
      SharedCall settings descriptions (fun member : Team p => do
        let total ← Session.work (Coordinator.computeForce part (forces member))
        return (Answer.netForce total : Answer shape α)) Same :=
    (work (sharedWork_computeForce someone part fits)).bind fun _ same =>
      answer (same.map Answer.netForce)
  cases inside : descriptions[part]? with
  | some description =>
      rcases composite.exists_row inside with ⟨forces, found, force, -⟩
      simp only [found]
      refine netForce forces (fun other same => ?_) sessions shared
      cases inside.symm.trans same
      exact force
  | none =>
      have without := composite.getElem?_eq_none inside
      have refused (forces : Team p → NodalField α) := netForce forces fun other same => by
        cases inside.symm.trans same
      cases first : descriptions[0]? with
      | none =>
          have empty : ∀ member, (composites member).parts.head? = none := by
            intro member
            rw [List.head?_eq_getElem?]
            exact composite.getElem?_eq_none first member
          simp only [without, empty]
          exact answer (fun _ => rfl) sessions shared
      | some description =>
          rcases composite.exists_row first with ⟨forces, found, -, -⟩
          simp only [← List.head?_eq_getElem?] at found
          simp only [without, found]
          exact refused forces sessions shared

theorem setBodyVelocity (someone : 0 < p) (part number : Nat)
    (dofs : Vector α shape.dim.rigidSize) :
    SharedCall settings descriptions (fun _ : Team p =>
      (Command.setBodyVelocity part dofs number : Command shape α).serve field) Same := by
  apply withComposite
  intro sessions shared composites composite others
  show Together _ fun member => Task.quiet (Task.bind
    ((Coordinator.setBodyVelocity part dofs).on
      ((sessions member).coordinator, composites member))
      fun (outcome, coordinator, composite) =>
        .done (outcome.map fun _ => Answer.done, { sessions member with
          coordinator, composites := (sessions member).composites.set number composite }))
  simp only [Task.quiet_bind]
  apply Together.bind (joint_setBodyVelocity someone part dofs shared.coordinator composite)
  rintro _ (⟨values, afters, rfl, coordinator, after⟩ |
    ⟨stop, afters, refusal, rfl, coordinator, after⟩)
  · exact .done (Or.inl ⟨fun _ => .done, _, rfl, fun _ => rfl,
      { others _ after with coordinator }⟩)
  · exact .done (Or.inr ⟨stop, _, refusal, rfl, { others _ after with coordinator }⟩)

/-- What all members find out from what they share. -/
theorem query {answers : Session shape α → Answer shape α}
    (same : ∀ sessions : Team p → Session shape α, SharedSession settings descriptions sessions →
      Same fun member => answers (sessions member)) :
    SharedCall settings descriptions
      (fun _ : Team p => do return answers (← get)) Same := by
  intro sessions shared
  apply joint_bind joint_get
  rintro _ _ ⟨rfl, rfl⟩
  exact answer (same sessions shared) sessions shared

/-- All members carry out a call in the same way. -/
theorem serve (someone : 0 < p) (command : Command shape α) :
    SharedCall settings descriptions (fun _ : Team p => command.serve field) Same := by
  cases command with
  | prepare =>
      exact silent (work (sharedWork_prepare someone))
  | listen listener =>
      exact silent (listen listener)
  | createComposite =>
      exact createComposite
  | fill number values =>
      exact fill number values
  | preprocess current new =>
      exact silent (work (sharedWork_preprocess someone current new))
  | postprocess =>
      exact silent (work sharedWork_postprocess)
  | fluidCalls current new cycle =>
      apply query
      intro sessions shared member
      simp only [Coordinator.fluidCalls, shared.coordinator.listeners member]
  | requestInterpolation time =>
      exact silent (work (sharedWork_attempting (sharedWork_committing _)))
  | interpolate time =>
      exact silent (exchange (sharedExchange_interpolate someone field time))
  | readVelocities number time factor =>
      exact readVelocities number time factor
  | advance rule current new =>
      exact silent (work (sharedWork_advance someone rule current new))
  | skipForce time =>
      exact silent (work (sharedWork_skipForce time))
  | setForce number time factor =>
      exact setForce someone number time factor
  | changeForces time values =>
      exact changeForces time values
  | computeForce part number =>
      exact computeForce someone part number
  | setBodyVelocity part dofs number =>
      exact setBodyVelocity someone part number dofs
  | updateVelocity part dofs =>
      exact silent (work (sharedWork_updateVelocity part dofs))
  | setVelocity part velocity =>
      exact silent (work (sharedWork_setVelocity part velocity))
  | spread time =>
      exact silent (exchange (sharedExchange_spread field time))
  | restartRecord =>
      apply query
      intro sessions shared
      exact (same_restartRecord shared.coordinator).map Answer.record
  | restore record =>
      exact silent (work (sharedWork_restore record))

end SharedCall

/-! ## Programs -/

/-- The call returned: it succeeded, or it failed by itself. -/
def Report.Returned (report : Report shape α) : Prop :=
  ∀ stop, report.outcome = .error stop → stop.IsRefusal

/-- Each member makes the same report and holds its part of one session. -/
def SharedEntry (settings : Settings α) (descriptions : List (StructureDescription shape α))
    (report : Report shape α) (entries : Team p → Report shape α × Session shape α) : Prop :=
  (∀ member, (entries member).1 = report) ∧ report.Returned ∧
    SharedSession settings descriptions fun member => (entries member).2

theorem SharedSession.same_report {sessions : Team p → Session shape α}
    (shared : SharedSession settings descriptions sessions)
    (outcome : Except (Stop α) (Answer shape α)) :
    Same fun member => (sessions member).report outcome := by
  have bodies := shared.coordinator.structures.same_map
    (f := fun body => (body.currentMass, body.halfMass, body.velocity)) fun _ _ row =>
      row.currentMass.pair (row.halfMass.pair row.velocity)
  intro member
  simp only [Session.report, shared.coordinator.protocol member, bodies member]

/-- All members carry out a program in the same way. -/
theorem Program.together_run (someone : 0 < p) (program : Program shape α) :
    ∀ sessions : Team p → Session shape α, SharedSession settings descriptions sessions →
      Together (fun logs => ∃ reports, Columns (SharedEntry settings descriptions) reports logs)
        fun member => (program.run field (sessions member)).quiet := by
  induction program with
  | finished =>
      exact fun _ _ => .done ⟨[], .nil⟩
  | call command next ih =>
      intro sessions shared
      simp only [run, Task.quiet_bind]
      have goOn (outcome : Except (Stop α) (Answer shape α)) (afters : Team p → Session shape α)
          (returned : ∀ stop, outcome = .error stop → stop.IsRefusal)
          (shared : SharedSession settings descriptions afters) :
          Together (fun logs => ∃ reports, Columns (SharedEntry settings descriptions) reports logs)
            fun member => (Task.bind ((next ((afters member).report outcome)).run field
              (afters member)) fun log =>
                .done (((afters member).report outcome, afters member) :: log)).quiet := by
        have entry : SharedEntry settings descriptions ((afters none).report outcome)
            fun member => ((afters member).report outcome, afters member) :=
          ⟨shared.same_report outcome, returned, shared⟩
        have same : ∀ member, (afters member).report outcome = (afters none).report outcome :=
          shared.same_report outcome
        simp only [Task.quiet_bind, same] at entry ⊢
        apply Together.bind (ih _ afters shared)
        rintro logs ⟨reports, columns⟩
        exact .done ⟨_, .cons entry columns⟩
      apply Together.bind (SharedCall.serve someone command sessions shared)
      rintro _ (⟨answers, afters, rfl, same, shared⟩ | ⟨stop, afters, refusal, rfl, shared⟩)
      · rw [same.eq]
        exact goOn (.ok (answers none)) afters nofun shared
      · rcases stop with failure | fault
        · apply goOn (.error (.failed failure)) afters _ shared
          rintro _ ⟨⟩
          exact refusal
        · exact refusal.elim

/--
All members of a team carry out a program in the same way.  Either the
registration is refused for all of them, or they make the same reports, no call
fails through a collective, and they hold their parts of one session after every
call.
-/
theorem Program.joint_session (someone : 0 < p)
    (rigid : ∀ description ∈ descriptions, description.nodalVelocity = .rigid shape.dim)
    (program : Program shape α) :
    Collective.Joint (fun member : Team p =>
        program.session settings descriptions field member.seat)
      fun logs => ∃ reports, Columns (SharedEntry settings descriptions) reports logs := by
  apply Collective.joint_bind (Coordinator.joint_register settings rigid)
  intro coordinators shared
  have sessions : SharedSession settings descriptions fun member : Team p =>
      ⟨coordinators member, .empty, []⟩ := ⟨shared, [], .nil⟩
  show Together _ fun member => Task.quiet (Task.bind
    (program.run field ⟨coordinators member, .empty, []⟩) fun log => .done (Except.ok log))
  simp only [Task.quiet_bind]
  apply Together.bind (program.together_run someone _ sessions)
  rintro logs ⟨reports, columns⟩
  exact .done (Or.inl ⟨logs, rfl, reports, columns⟩)

end ImmersedBody
