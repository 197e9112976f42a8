import ImmersedBody.Proofs.Coordinator.RigidMotion
import ImmersedBody.Proofs.Coordinator.Refinement
import ImmersedBody.Proofs.Coordinator.SerialSessions

/-!
# Distances between nodes

Structures that ride rigidly keep the distances between their nodes: in the current
positions, and in the half-time and the new positions of an open step.  This is
stated for the parts of a structure on several ranks, of which the only rank is a
special case.

`distances_preserved` is about all calls on the only rank and about all programs
on a cluster.
-/

namespace ImmersedBody

open ImmersedBody.Action

variable {shape : Shape} {p : Nat} {ι : Type}

/-! ## Congruence to the reference mesh -/

/--
Parts of one field of positions: every node of a mesh can be read from some of
them, and any two nodes are as far apart as in the mesh, wherever they are read.
-/
structure NodalField.Congruent (mesh : Mesh shape ℝ) (fields : ι → NodalField ℝ) : Prop where
  readable : ∀ node, node < mesh.vertices.size →
    ∃ rank v, (fields rank).vector shape.dim node = .ok v
  distance : ∀ node other (inside : node < mesh.vertices.size)
    (inside' : other < mesh.vertices.size) rank rank' v w,
    (fields rank).vector shape.dim node = .ok v →
      (fields rank').vector shape.dim other = .ok w →
        (v - w).norm = (mesh.place node inside - mesh.place other inside').norm

/-- Parts of one structure whose positions, also those of an open step, are congruent to a mesh. -/
structure RigidStructure.Congruent (mesh : Mesh shape ℝ) (bodies : ι → RigidStructure shape ℝ) :
    Prop where
  positions : NodalField.Congruent mesh fun rank => (bodies rank).positions
  step : (∀ rank, (bodies rank).step = none) ∨
    ∃ steps : ι → StepFields ℝ, (∀ rank, (bodies rank).step = some (steps rank)) ∧
      NodalField.Congruent mesh (fun rank => (steps rank).halfPositions) ∧
        NodalField.Congruent mesh fun rank => (steps rank).newPositions

/-- Parts of one coordinator whose structures are congruent to the meshes of their descriptions. -/
structure Coordinator.Congruent (descriptions : List (StructureDescription shape ℝ))
    (coordinators : ι → Coordinator shape ℝ) : Prop where
  length_eq : ∀ rank, (coordinators rank).structures.length = descriptions.length
  each : ∀ (part : Nat) (description : StructureDescription shape ℝ),
    descriptions[part]? = some description → ∃ bodies : ι → RigidStructure shape ℝ,
      (∀ rank, (coordinators rank).structures[part]? = some (bodies rank)) ∧
        RigidStructure.Congruent description.mesh bodies

/-! ## The only rank -/

theorem NodalField.PlacesRigidly.congruent {field : NodalField ℝ} {layout : FieldLayout}
    {mesh : Mesh shape ℝ} (rigid : field.PlacesRigidly layout mesh) :
    NodalField.Congruent mesh fun _ : Unit => field := by
  rcases rigid with ⟨map, placed⟩
  constructor
  · intro node inside
    exact ⟨(), _, placed.vector_eq node inside⟩
  · intro node other inside inside' _ _ v w read read'
    rw [placed.vector_eq node inside, Except.ok.injEq] at read
    rw [placed.vector_eq other inside', Except.ok.injEq] at read'
    rw [← read, ← read', map.norm_apply_sub]

theorem RigidStructure.RidesRigidly.congruent {description : StructureDescription shape ℝ}
    {body : RigidStructure shape ℝ} (rides : RidesRigidly description body) :
    Congruent description.mesh fun _ : Unit => body where
  positions := rides.positions.congruent
  step := by
    cases opened : body.step with
    | none =>
        exact Or.inl fun _ => rfl
    | some step =>
        rcases rides.step step opened with ⟨half, new⟩
        exact Or.inr ⟨fun _ => step, fun _ => rfl, half.congruent, new.congruent⟩

namespace Coordinator

open RigidStructure

variable {settings : Settings ℝ} {descriptions : List (StructureDescription shape ℝ)}
  {c : Coordinator shape ℝ}

/-- Every description has a structure that rides on it. -/
theorem Standing.exists_rides
    (standing : c.Standing settings descriptions.length (Riding descriptions)) {part : Nat}
    {description : StructureDescription shape ℝ} (inside : descriptions[part]? = some description) :
    ∃ body, c.structures[part]? = some body ∧ RidesRigidly description body := by
  rcases standing.exists_structure (List.getElem?_eq_some_iff.mp inside).1 with
    ⟨body, found, described, same, rides⟩
  rw [inside, Option.some.injEq] at same
  exact ⟨_, found, same ▸ rides⟩

theorem Standing.congruent
    (standing : c.Standing settings descriptions.length (Riding descriptions)) :
    Congruent descriptions fun _ : Unit => c where
  length_eq := fun _ => standing.length_eq
  each := by
    intro part description inside
    rcases standing.exists_rides inside with ⟨body, found, rides⟩
    exact ⟨fun _ => body, fun _ => found, rides.congruent⟩

/-- Registered structures ride on their descriptions. -/
theorem riding_of_register (within : ∀ description ∈ descriptions, description.TurnsWithin)
    {seat : Seat} (serial : seat.size = 1)
    (registered : (register settings descriptions seat).alone = .ok c) :
    c.Standing settings descriptions.length (Riding descriptions) := by
  apply (standing_of_register serial registered).1.imp
  rintro part body ⟨description, described, created⟩
  exact ⟨description, described,
    .of_setUp (within description (List.mem_of_getElem? described)) serial created⟩

end Coordinator

/-! ## Several ranks -/

/-- What a member of a team reads from a fresh field is what the reference reads. -/
theorem FreshField.vector_none {α : Type} [Scalar α] {mesh : Mesh shape α}
    {fields : Team p → NodalField α} (fresh : FreshField mesh fields)
    (additive : ExactAddition α) {member : Team p} {node : Nat} {v : Vec3 α}
    (read : (fields member).vector shape.dim node = .ok v) :
    (fields none).vector shape.dim node = .ok v := by
  rcases NodalField.nodeHolds_of_vector (fresh.block member) read with ⟨holds, flat⟩
  rw [← flat]
  apply NodalField.vector_of_nodeHolds (fresh.block none)
  intro place below
  exact fresh.copies additive member _ _ (holds place below)

/-- The members of a team hold congruent positions if the reference does. -/
theorem FreshField.congruent {mesh : Mesh shape ℝ} {fields : Team p → NodalField ℝ}
    (fresh : FreshField mesh fields) (someone : 0 < p) (additive : ExactAddition ℝ)
    (reference : NodalField.Congruent mesh fun _ : Unit => fields none) :
    NodalField.Congruent mesh fun rank : Fin p => fields (some rank) where
  readable := by
    intro node inside
    rcases fresh.toSharedField.exists_vectors with ⟨vectors, read, -⟩
    rcases Seat.exists_block someone inside with ⟨rank, owned⟩
    exact ⟨rank, _, read (some rank) node owned⟩
  distance := by
    intro node other inside inside' rank rank' v w read read'
    exact reference.distance node other inside inside' () () v w (fresh.vector_none additive read)
      (fresh.vector_none additive read')

theorem SharedStructure.congruent {description : StructureDescription shape ℝ}
    {bodies : Team p → RigidStructure shape ℝ} (shared : SharedStructure description bodies)
    (someone : 0 < p) (additive : ExactAddition ℝ)
    (reference : RigidStructure.Congruent description.mesh fun _ : Unit => bodies none) :
    RigidStructure.Congruent description.mesh fun rank : Fin p => bodies (some rank) where
  positions := shared.positions.congruent someone additive reference.positions
  step := by
    rcases shared.step with without | ⟨steps, found, step⟩
    · exact Or.inl fun rank => without (some rank)
    · rcases reference.step with closed | ⟨whole, opened, half, new⟩
      · rw [found none] at closed
        cases closed ()
      · have same : steps none = whole () := Option.some.inj ((found none).symm.trans (opened ()))
        refine Or.inr ⟨fun rank => steps (some rank), fun rank => found (some rank), ?_, ?_⟩
        · apply step.halfPositions.congruent someone additive
          rw [same]
          exact half
        · apply step.newPositions.congruent someone additive
          rw [same]
          exact new

theorem SharedCoordinator.congruent {settings : Settings ℝ}
    {descriptions : List (StructureDescription shape ℝ)}
    {coordinators : Team p → Coordinator shape ℝ}
    (shared : SharedCoordinator settings descriptions coordinators) (someone : 0 < p)
    (additive : ExactAddition ℝ)
    (reference : Coordinator.Congruent descriptions fun _ : Unit => coordinators none) :
    Coordinator.Congruent descriptions fun rank : Fin p => coordinators (some rank) where
  length_eq := fun rank => shared.count (some rank)
  each := by
    intro part description inside
    rcases shared.exists_structure inside with ⟨bodies, found, row, -⟩
    rcases reference.each part description inside with ⟨whole, foundNone, congruent⟩
    have same : bodies none = whole () := Option.some.inj ((found none).symm.trans (foundNone ()))
    refine ⟨fun rank => bodies (some rank), fun rank => found (some rank), ?_⟩
    apply row.congruent someone additive
    rw [same]
    exact congruent

/-! ## Runs -/

/-- The velocities that a command sets turn the plane within itself. -/
def Command.TurnsWithin : Command shape ℝ → Prop
  | setVelocity _ velocity => shape.dim.TurnsWithin velocity.rotational
  | restore record => ∀ velocity ∈ record.velocities, shape.dim.TurnsWithin velocity.rotational
  | _ => True

theorem Command.TurnsWithin.of_call? {command : Command shape ℝ} {session : Session shape ℝ}
    {call : Coordinator.Call shape ℝ} (within : command.TurnsWithin)
    (made : command.call? session = some call) : call.TurnsWithin := by
  cases command with
  | readVelocities number time factor | setForce number time factor
  | setBodyVelocity number dofs composite =>
      rcases Option.map_eq_some_iff.mp made with ⟨_, -, rfl⟩
      trivial
  | computeForce part number =>
      rcases Option.bind_eq_some_iff.mp made with ⟨_, -, made⟩
      rcases Option.map_eq_some_iff.mp made with ⟨_, -, rfl⟩
      trivial
  | _ =>
      cases made <;> exact within

namespace Program

variable {settings : Settings ℝ} {descriptions : List (StructureDescription shape ℝ)}
  {field : Vec3 ℝ → ℝ → Vec3 ℝ}

/-- After every command on the only rank the structures are congruent to their meshes. -/
theorem congruent_of_alone (described : ∀ description ∈ descriptions, description.TurnsWithin)
    {program : Program shape ℝ} (within : program.All Command.TurnsWithin) {log : Log shape ℝ}
    (ran : (program.session settings descriptions field .alone).alone = .ok log) :
    ∀ entry ∈ log, Coordinator.Congruent descriptions fun _ : Unit => entry.2.coordinator := by
  rw [session, Collective.alone_bind] at ran
  cases registered : (Coordinator.register settings descriptions .alone).alone with
  | error stop =>
      rw [registered] at ran
      cases ran
  | ok c =>
      simp only [registered, Collective.alone_lift, Except.ok.injEq] at ran
      subst ran
      intro entry member
      rcases leads_of_mem_run within member with ⟨calls, made, reached⟩
      have within : ∀ call ∈ calls, call.TurnsWithin := by
        intro call member
        rcases made call member with ⟨command, session, within, made⟩
        exact within.of_call? made
      have standing : entry.2.coordinator.Standing settings descriptions.length
          (RigidStructure.Riding descriptions) := by
        rw [show entry.2.coordinator = _ from congrArg Prod.fst reached]
        have riding := Coordinator.riding_of_register described rfl registered
        exact riding.run_riding described within _
      exact standing.congruent

/--
Either the registration is refused for all ranks, or after every command of the
program the structures are congruent to the meshes of their descriptions.
-/
def CongruentEnds (descriptions : List (StructureDescription shape ℝ))
    (results : Fin p → Except (Stop ℝ) (Log shape ℝ)) : Prop :=
  (∃ stop, stop.IsRefusal ∧ results = fun _ => .error stop) ∨
    ∃ (logs : Fin p → Log shape ℝ) (count : Nat), results = (fun rank => .ok (logs rank)) ∧
      (∀ rank, (logs rank).length = count) ∧
      ∀ place < count, ∃ entries : Fin p → Report shape ℝ × Session shape ℝ,
        (∀ rank, (logs rank)[place]? = some (entries rank)) ∧
          Coordinator.Congruent descriptions fun rank => (entries rank).2.coordinator

/-- After every command on a cluster the structures are congruent to their meshes. -/
theorem congruentEnds_history (someone : 0 < p) (settings : Settings ℝ)
    (described : ∀ description ∈ descriptions, description.TurnsWithin)
    (rigid : ∀ description ∈ descriptions, description.nodalVelocity = .rigid shape.dim)
    (field : Vec3 ℝ → ℝ → Vec3 ℝ) {program : Program shape ℝ}
    (within : program.All Command.TurnsWithin)
    (fails : Except (Stop ℝ) (Log shape ℝ) → Bool) (schedule : List Nat) :
    let reached := Cluster.history fails p
      (fun seat => (program.session settings descriptions field seat).run) schedule
    Cluster.InStep (p := p) (CongruentEnds descriptions) reached.1 reached.2 := by
  have additive : ExactAddition ℝ := ⟨add_assoc, add_comm, zero_add⟩
  have joint : Collective.Joint (fun member : Team p =>
      program.session settings descriptions field member.seat) _ :=
    program.joint_session someone rigid
  apply Cluster.inStep_history someone _ fails schedule
  apply (Together.lockstep joint).imp
  rintro results ⟨reference, serial, ⟨logs, found, reports, columns⟩ | ⟨stop, refusal, found⟩⟩
  · -- The log of the reference is that of the run on the only rank.
    have ran : (program.session settings descriptions field .alone).alone = .ok (logs none) := by
      have reference_eq := serial additive
      rw [Task.alone_quiet] at reference_eq
      exact reference_eq.symm.trans (congrFun found none)
    refine Or.inr ⟨fun rank => logs (some rank), reports.length, ?_, ?_, ?_⟩
    · funext rank
      exact congrFun found (some rank)
    · exact fun rank => columns.length_eq (some rank)
    · intro place inside
      rcases columns.exists_row (List.getElem?_eq_getElem inside) with ⟨entries, stored, entry, -⟩
      refine ⟨fun rank => entries (some rank), fun rank => stored (some rank), ?_⟩
      apply entry.2.2.coordinator.congruent someone additive
      exact congruent_of_alone described within ran _ (List.mem_of_getElem? (stored none))
  · refine Or.inl ⟨stop, refusal, ?_⟩
    funext rank
    exact congrFun found (some rank)

/-- What holds of all commands in a list holds of all that the program comes to. -/
theorem all_ofCommands {allowed : Command shape ℝ → Prop} {commands : List (Command shape ℝ)}
    (each : ∀ command ∈ commands, allowed command) : (ofCommands commands).All allowed := by
  induction commands with
  | nil =>
      trivial
  | cons command commands ih =>
      refine ⟨each command List.mem_cons_self, fun _ => ?_⟩
      exact ih fun other member => each other (List.mem_cons_of_mem command member)

end Program

/--
Structures keep their shape over whole runs.  After all calls on the only rank, with
any flow, and after every command of a program that any number of ranks carry out,
any two nodes of a structure are as far apart as in the reference mesh.  In the plane
all angular velocities have to stand on the plane.
-/
theorem Coordinator.distances_preserved (settings : Settings ℝ)
    (descriptions : List (StructureDescription shape ℝ))
    (described : ∀ description ∈ descriptions, description.TurnsWithin) :
    (∀ {σ : Type} (flow : FlowTransfer ℝ σ) (state : σ) (c : Coordinator shape ℝ),
      (register settings descriptions .alone).alone = .ok c →
        ∀ calls : List (Call shape ℝ), (∀ call ∈ calls, call.TurnsWithin) →
          Congruent descriptions fun _ : Unit => (runAlone flow (c, state) calls).1) ∧
    ∀ p, 0 < p →
      (∀ description ∈ descriptions, description.nodalVelocity = .rigid shape.dim) →
        ∀ (field : Vec3 ℝ → ℝ → Vec3 ℝ) (program : Program shape ℝ),
          program.All Command.TurnsWithin →
            ∀ (fails : Except (Stop ℝ) (Program.Log shape ℝ) → Bool) (schedule : List Nat),
              let reached := Cluster.history fails p
                (fun seat => (program.session settings descriptions field seat).run) schedule
              Cluster.InStep (p := p) (Program.CongruentEnds descriptions) reached.1 reached.2 := by
  constructor
  · intro σ flow state c registered calls within
    have riding := riding_of_register described rfl registered
    exact (riding.run_riding described within state).congruent
  · intro p someone rigid field program within fails schedule
    exact Program.congruentEnds_history someone settings described rigid field within fails schedule

open StructureDescription in
/-- A step of the square, which turns, on the only rank and on two ranks that take turns. -/
theorem Coordinator.distances_preserved_turningSquare :
    let settings : Settings ℝ := ⟨"square", 0, 1 / 10⟩
    let reached := Program.takeTurns 2 100 (Program.session settings [turningSquare] (fun x _ => x)
      (.ofCommands [.preprocess 0 1, .advance .forwardEuler 0 1, .advance .midpoint 0 1,
        .postprocess]))
    (∃ c, (register settings [turningSquare] .alone).alone = .ok c ∧
      Congruent [turningSquare] fun _ : Unit =>
        (runAlone (AnalyticFlow.atRest .two) (c, SpreadTally.empty)
          [.preprocess 0 1, .advance .forwardEuler 0 1, .advance .midpoint 0 1, .postprocess]).1) ∧
      Cluster.InStep (p := 2) (Program.CongruentEnds [turningSquare]) reached.1 reached.2 := by
  intro settings reached
  have described : ∀ description ∈ [turningSquare], description.TurnsWithin := by
    intro description member
    rw [List.mem_singleton.mp member]
    exact turnsWithin_turningSquare
  have rigid : ∀ description ∈ [turningSquare], description.nodalVelocity = .rigid .two := by
    intro description member
    rw [List.mem_singleton.mp member]
    rfl
  rcases distances_preserved settings [turningSquare] described with ⟨alone, together⟩
  constructor
  · rcases exists_register_turningSquare with ⟨c, registered⟩
    refine ⟨c, registered, alone _ _ c registered _ ?_⟩
    simp [Call.TurnsWithin]
  · apply together 2 (by decide) rigid
    apply Program.all_ofCommands
    simp [Command.TurnsWithin]

end ImmersedBody
