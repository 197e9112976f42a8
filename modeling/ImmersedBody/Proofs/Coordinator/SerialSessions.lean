import ImmersedBody.Proofs.Coordinator.Commits
import ImmersedBody.Proofs.Coordinator.Sessions

/-!
# Programs on the only rank

A command of a program makes one call of the coordinator or none: it looks up the
composites that it names, and changes nothing else that a coordinator knows of.
After every command of a program, the coordinator on the only rank is therefore
where calls have led to, one after the other: `Program.leads_of_mem_run`.
-/

namespace ImmersedBody

open ImmersedBody.Action

variable {α β : Type} [Scalar α] {shape : Shape}

/-- The call that a command makes in a session. -/
def Command.call? (session : Session shape α) : Command shape α → Option (Coordinator.Call shape α)
  | prepare => some .prepare
  | listen listener => some (.listen listener)
  | createComposite => some .createComposite
  | preprocess current new => some (.preprocess current new)
  | postprocess => some .postprocess
  | requestInterpolation time => some (.requestInterpolation time)
  | interpolate time => some (.interpolate time)
  | readVelocities number time factor =>
      session.composites[number]?.map fun composite => .readVelocities composite time factor
  | advance rule current new => some (.advance rule current new)
  | skipForce time => some (.skipForce time)
  | setForce number time factor =>
      session.composites[number]?.map fun composite => .setForce composite time factor
  | changeForces time values => some (.changeForces time (·.fill values))
  | computeForce part number =>
      session.composites[number]?.bind fun composite =>
        (composite.parts[part]? <|> composite.parts.head?).map fun force => .computeForce part force
  | setBodyVelocity part dofs number =>
      session.composites[number]?.map fun composite => .setBodyVelocity part dofs composite
  | updateVelocity part dofs => some (.updateVelocity part dofs)
  | setVelocity part velocity => some (.setVelocity part velocity)
  | spread time => some (.spread time)
  | restore record => some (.restore record)
  -- These do not need the coordinator, or only look at it.
  | fill _ _ | fluidCalls _ _ _ | restartRecord => none

namespace Session

/-- What calls of a coordinator work on. -/
def served (session : Session shape α) : Coordinator shape α × SpreadTally α :=
  (session.coordinator, session.tally)

variable {session : Session shape α} {post : β → Session shape α → Prop}
  {stopped : Session shape α → Prop}

omit [Scalar α] in
@[simp]
theorem ends_work {work : Coordinator.Work shape α β} :
    (Session.work work).Ends session post stopped ↔
      work.Ends session.coordinator
        (fun value coordinator => post value { session with coordinator })
        fun coordinator => stopped { session with coordinator } := by
  rw [Session.work, ends_of, Task.alone_bind, Ends, Action.alone]
  generalize (work.on session.coordinator).alone = result
  rcases result with ⟨_ | value, coordinator⟩ <;> rfl

omit [Scalar α] in
@[simp]
theorem ends_exchange {action : Action α (Coordinator shape α × SpreadTally α) β} :
    (Session.exchange action).Ends session post stopped ↔
      action.Ends session.served
        (fun value after => post value { session with coordinator := after.1, tally := after.2 })
        fun after => stopped { session with coordinator := after.1, tally := after.2 } := by
  rw [Session.exchange, ends_of, Task.alone_bind, Ends, Action.alone, served]
  generalize (action.on (session.coordinator, session.tally)).alone = result
  rcases result with ⟨_ | value, after⟩ <;> rfl

end Session

/-- What holds of the state after a call holds however the call ends. -/
theorem Coordinator.ends_serveAlone {σ : Type} {flow : FlowTransfer α σ}
    {call : Coordinator.Call shape α} {state : Coordinator shape α × σ}
    {property : Coordinator shape α × σ → Prop} (after : property (serveAlone flow state call)) :
    (call.serve flow).Ends state (fun _ after => property after) property := by
  rw [serveAlone] at after
  rw [Ends]
  generalize (call.serve flow).alone state = result at *
  rcases result with ⟨_ | _, _⟩ <;> exact after

open Session

variable {field : Vec3 α → α → Vec3 α} {session : Session shape α}

/-- A command does with the coordinator what its call does. -/
theorem Command.ends_serve {holds : Coordinator shape α × SpreadTally α → Prop}
    (command : Command shape α) (before : holds session.served)
    (serves : ∀ call, command.call? session = some call →
      (call.serve (AnalyticFlow.transfer shape.dim field)).Ends session.served
        (fun _ after => holds after) holds) :
    (command.serve field).Ends session (fun _ after => holds after.served)
      fun after => holds after.served := by
  cases command with
  | prepare | listen listener | preprocess current new | postprocess | requestInterpolation time
  | advance rule current new | skipForce time | updateVelocity part dofs
  | setVelocity part velocity | restore record =>
      have serves := serves _ rfl
      rw [Coordinator.Call.serve, Session.served, ends_first] at serves
      simp only [Command.serve, ends_bind, ends_work, ends_pure]
      exact serves
  | interpolate time | spread time =>
      have serves := serves _ rfl
      rw [Coordinator.Call.serve] at serves
      simp only [Command.serve, ends_bind, ends_exchange, ends_pure]
      exact serves
  | fill number values =>
      simp only [Command.serve, Session.withComposite, ends_bind, ends_get]
      split
      · simp only [Session.store, ends_bind, ends_modify, ends_pure]
        exact before
      · exact before
  | fluidCalls current new cycle | restartRecord =>
      simp only [Command.serve, ends_bind, ends_get, ends_pure]
      exact before
  | createComposite =>
      simp only [Command.serve, ends_bind, ends_get, ends_collective]
      cases session.coordinator.createComposite.alone with
      | error stop =>
          exact before
      | ok composite =>
          simp only [ends_modify, ends_pure]
          exact before
  | readVelocities number time factor =>
      simp only [Command.serve, Session.withComposite, ends_bind, ends_get]
      split
      next composite found =>
        simp only [ends_bind, ends_get, ends_part, ends_pure]
        split <;> exact before
      next =>
        exact before
  | setForce number time factor =>
      simp only [Command.serve, Session.withComposite, ends_bind, ends_get]
      split
      next composite found =>
        have serves := serves (.setForce composite time factor) (by simp [call?, found])
        rw [Coordinator.Call.serve, Session.served, ends_first] at serves
        simp only [ends_bind, ends_work, ends_pure]
        exact serves
      next =>
        exact before
  | changeForces time values =>
      have serves := serves _ rfl
      rw [Coordinator.Call.serve, Session.served, ends_first] at serves
      simp only [ends_bind, ends_pure] at serves
      simp only [Command.serve, ends_bind, ends_work, ends_pure]
      exact serves
  | computeForce part number =>
      simp only [Command.serve, Session.withComposite, ends_bind, ends_get]
      split
      next composite found =>
        split
        next force stored =>
          have serves := serves (.computeForce part force)
            (by simp only [call?, found, Option.bind_some, stored, Option.map_some])
          rw [Coordinator.Call.serve, Session.served, ends_first] at serves
          simp only [ends_bind, ends_pure] at serves
          simp only [ends_bind, ends_work, ends_pure]
          exact serves
        next =>
          exact before
      next =>
        exact before
  | setBodyVelocity part dofs number =>
      simp only [Command.serve, Session.withComposite, ends_bind, ends_get]
      split
      next composite found =>
        have serves := serves (.setBodyVelocity part dofs composite) (by simp [call?, found])
        simp only [Coordinator.Call.serve, ends_of, Task.alone_bind, Session.served] at serves
        simp only [ends_of, Task.alone_bind]
        generalize ((Coordinator.setBodyVelocity part dofs).on
          (session.coordinator, composite)).alone = result at *
        rcases result with ⟨_ | _, after⟩ <;> exact serves
      next =>
        exact before

/-- Calls that commands with a property make lead from one state to another on the only rank. -/
def Command.Leads (field : Vec3 α → α → Vec3 α) (allowed : Command shape α → Prop)
    (before after : Coordinator shape α × SpreadTally α) : Prop :=
  ∃ calls : List (Coordinator.Call shape α),
    (∀ call ∈ calls, ∃ command session, allowed command ∧ command.call? session = some call) ∧
      after = Coordinator.runAlone (AnalyticFlow.transfer shape.dim field) before calls

namespace Command.Leads

variable {allowed : Command shape α → Prop}

theorem refl (state : Coordinator shape α × SpreadTally α) : Leads field allowed state state :=
  ⟨[], nofun, rfl⟩

theorem trans {before between after : Coordinator shape α × SpreadTally α}
    (first : Leads field allowed before between) (later : Leads field allowed between after) :
    Leads field allowed before after := by
  rcases first with ⟨calls, made, rfl⟩
  rcases later with ⟨calls', made', rfl⟩
  refine ⟨calls ++ calls', ?_, ?_⟩
  · intro call member
    rcases List.mem_append.mp member with member | member
    · exact made call member
    · exact made' call member
  · exact (List.foldl_append).symm

/-- A command leads on by its call, if it makes one. -/
theorem of_serve {command : Command shape α} (permitted : allowed command) :
    Leads field allowed session.served ((command.serve field).alone session).2.served := by
  have led : (command.serve field).Ends session
      (fun _ after => Leads field allowed session.served after.served)
      fun after => Leads field allowed session.served after.served := by
    apply command.ends_serve (refl _)
    intro call made
    apply Coordinator.ends_serveAlone
    refine ⟨[call], ?_, rfl⟩
    intro _ member
    rw [List.mem_singleton.mp member]
    exact ⟨command, session, permitted, made⟩
  rw [Ends] at led
  generalize (command.serve field).alone session = result at *
  rcases result with ⟨_ | _, after⟩ <;> exact led

end Command.Leads

namespace Program

/-- All commands that a program may come to have a property. -/
def All (allowed : Command shape α → Prop) : Program shape α → Prop
  | finished => True
  | call command next => allowed command ∧ ∀ report, (next report).All allowed

/-- What a program on the only rank has come to after each command is led to by calls. -/
theorem leads_of_mem_run {allowed : Command shape α → Prop} {program : Program shape α}
    (all : program.All allowed) :
    ∀ {session : Session shape α} {entry : Report shape α × Session shape α},
      entry ∈ (program.run field session).alone →
        Command.Leads field allowed session.served entry.2.served := by
  induction program with
  | finished =>
      intro session entry member
      cases member
  | call command next ih =>
      intro session entry member
      have first : Command.Leads field allowed session.served
          ((command.serve field).alone session).2.served := .of_serve all.1
      rw [run, Task.alone_bind, ← Action.alone] at member
      generalize (command.serve field).alone session = result at *
      rcases result with ⟨outcome, after⟩
      have last : entry = (after.report outcome, after) ∨
          entry ∈ ((next (after.report outcome)).run field after).alone := by
        simp only at member
        split at member
        · left
          simpa [Task.alone] using member
        · simpa [Task.alone_bind, Task.alone] using member
      rcases last with rfl | later
      · exact first
      · exact first.trans (ih _ (all.2 _) later)

end Program

end ImmersedBody
