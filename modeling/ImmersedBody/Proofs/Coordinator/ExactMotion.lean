import ImmersedBody.Proofs.Coordinator.PlainSteps

/-!
# Exact motion of free structures

A structure that is registered in its reference configuration and goes through
completed steps with a constant rigid velocity is where the rotation and the
translation over the sum of the lengths of the steps take its reference mesh,
however this time is divided into steps.

The main theorem is `free_motion`.
-/

namespace ImmersedBody

open ImmersedBody.Action

variable {shape : Shape} {σ : Type}

namespace Coordinator

open RigidStructure

variable {settings : Settings ℝ} {descriptions : List (StructureDescription shape ℝ)} {part : Nat}
  {mass : MassProperties ℝ} {velocity : RigidVelocity ℝ} {first : RigidStructure shape ℝ}
  {c : Coordinator shape ℝ}

/-! ## Registration -/

/-- A registered structure sets out from its reference configuration. -/
theorem setsOut_of_register (registered : (register settings descriptions .alone).alone = .ok c)
    (found : c.structures[part]? = some first) (free : first.motion = .free)
    (weighed : (first.massAt first.positions settings.quadratureOrder).alone = .ok mass)
    (fits : velocity.Fits shape.dim) :
    SetsOut settings.quadratureOrder mass velocity first ∧ first.step = none := by
  have standing := (standing_of_register rfl registered).1
  rcases standing.each part first found with ⟨description, -, created⟩
  rcases fields_of_setUp created with ⟨mesh_eq, -, -, -, closed⟩
  rcases places_of_setUp rfl created with ⟨covers, placed⟩
  rw [← mesh_eq] at covers placed
  exact ⟨⟨free, covers, placed, weighed, fits⟩, closed⟩

/-- A registered structure rests in its reference configuration, with whatever velocity. -/
theorem rests_of_register (registered : (register settings descriptions .alone).alone = .ok c)
    (found : c.structures[part]? = some first) {order : Nat}
    (out : SetsOut order mass velocity first) (closed : first.step = none) :
    c.Standing settings descriptions.length
      (Idle part (Rests mass velocity first 0 fun _ => True)) := by
  apply (standing_of_register rfl registered).1.idle_of_getElem? found closed
  exact ⟨⟨rfl, rfl, rfl, rfl⟩, out.onPath_zero, trivial⟩

/-- A registration is refused without a positive tolerance. -/
theorem timeTolerance_pos_of_register
    (registered : (register settings descriptions .alone).alone = .ok c) :
    0 < settings.timeTolerance := by
  rw [register] at registered
  cases checked : settings.check with
  | error fault =>
      rw [checked] at registered
      cases registered
  | ok _ =>
      rw [Settings.check] at checked
      split_ifs at checked with noName order tolerance
      simpa using tolerance

/-- Registered structures that are free, have a volume and a velocity that fits wait for steps. -/
theorem ready_of_register (registered : (register settings descriptions .alone).alone = .ok c)
    (free : ∀ body ∈ c.structures, body.motion = .free)
    (weighed : ∀ body ∈ c.structures, ∃ mass,
      (body.massAt body.positions settings.quadratureOrder).alone = .ok mass)
    (fits : ∀ body ∈ c.structures, body.velocity.current.Fits shape.dim) :
    c.Ready settings descriptions.length := by
  have standing := standing_of_register rfl registered
  refine ⟨⟨standing.1.settings_eq, standing.1.serial, standing.1.length_eq, ?_⟩, standing.2,
    (timeTolerance_pos_of_register registered).le⟩
  intro part body found
  have member := List.mem_of_getElem? found
  rcases weighed body member with ⟨mass, computed⟩
  rcases setsOut_of_register registered found (free body member) computed (fits body member) with
    ⟨out, closed⟩
  exact ⟨closed, mass, _, body, 0, out, ⟨rfl, rfl, rfl, rfl⟩, out.onPath_zero, rfl⟩

open MassProperties in
/-- The square has its volume where it is described; its center of mass is its middle. -/
theorem exists_mass_square {body : RigidStructure .triangle ℝ} {layout : FieldLayout}
    {positions : NodalField ℝ} (mesh_eq : body.mesh = square)
    (partition_eq : body.partition = .ofMesh square .alone)
    (placed : positions.Places layout square fun x => x) :
    ∃ mass, (body.massAt positions 0).alone = .ok mass ∧ mass.center = ⟨1, 1, 0⟩ := by
  have images : ∀ node < square.vertices.size, ∀ x,
      (fourNodes corner).vector Shape.triangle.dim node = .ok x →
        positions.vector Shape.triangle.dim node =
          .ok ((RigidMap.identity Shape.triangle.dim).apply x) := by
    intro node inside x read
    have read' := read.symm.trans (vector_fourNodes corner node inside)
    rw [Except.ok.injEq] at read'
    rw [RigidMap.identity_apply, read']
    refine (placed.vector_eq node inside).trans (congrArg Except.ok ?_)
    match node, inside with
    | 0, _ | 1, _ | 2, _ | 3, _ =>
        ext <;> simp [Mesh.place, square, corner, Dim.flatten_two]
  have moved := compute_moved (RigidMap.identity Shape.triangle.dim) images compute_square
  rw [massAt, mesh_eq, partition_eq]
  exact ⟨_, moved, RigidMap.identity_apply _⟩

open StructureDescription in
theorem exists_mass_turningSquare {body : RigidStructure .triangle ℝ}
    (created : setUp turningSquare .alone = .ok body) :
    ∃ mass, (body.massAt body.positions 0).alone = .ok mass ∧ mass.center = ⟨1, 1, 0⟩ := by
  rcases fields_of_setUp created with ⟨mesh_eq, partition_eq, -⟩
  exact exists_mass_square mesh_eq partition_eq (places_of_setUp rfl created).2

open StructureDescription in
theorem setUp_of_register_turningSquare {c : Coordinator .triangle ℝ}
    (registered : (register settings [turningSquare] .alone).alone = .ok c) :
    ∀ body ∈ c.structures, setUp turningSquare .alone = .ok body := by
  intro body member
  rcases List.getElem?_of_mem member with ⟨part, found⟩
  rcases (standing_of_register rfl registered).1.each part body found with
    ⟨description, described, created⟩
  rwa [List.mem_singleton.mp (List.mem_of_getElem? described)] at created

open StructureDescription in
/-- The velocity that the square is registered with. -/
theorem velocity_turningSquare {body : RigidStructure .triangle ℝ}
    (created : setUp turningSquare .alone = .ok body) :
    body.velocity.current = ⟨⟨1, 0, 0⟩, ⟨0, 0, 2⟩⟩ := by
  rw [(fields_of_setUp created).2.2.2.1]
  rfl

theorem fits_turningSquare : RigidVelocity.Fits .two ⟨⟨1, 0, 0⟩, ⟨0, 0, 2⟩⟩ where
  flat := by simp [Dim.flatten_two]
  turns := fun _ => ⟨rfl, rfl⟩

open StructureDescription in
/-- The square that is registered waits for steps. -/
theorem ready_turningSquare {settings : Settings ℝ} (order : settings.quadratureOrder = 0)
    {c : Coordinator .triangle ℝ}
    (registered : (register settings [turningSquare] .alone).alone = .ok c) :
    c.Ready settings 1 := by
  have created := setUp_of_register_turningSquare registered
  apply ready_of_register registered
  · exact fun body member => (fields_of_setUp (created body member)).2.2.1
  · intro body member
    rw [order]
    exact (exists_mass_turningSquare (created body member)).imp fun _ => And.left
  · exact fun body member => velocity_turningSquare (created body member) ▸ fits_turningSquare

/-! ## The main result -/

/--
A free structure moves on exactly with its rigid velocity.  It is registered with a
velocity, or given one before the first step, and goes through any number of
completed steps in which its velocity is not set.  Then its nodes are where the
rotation and the translation over the sum of the lengths of the steps take their
places in the reference mesh, about the center of mass of the reference mesh.  The
center of mass that the next opening of a step computes is the translated one.
-/
theorem free_motion {settings : Settings ℝ} {descriptions : List (StructureDescription shape ℝ)}
    {c : Coordinator shape ℝ} (registered : (register settings descriptions .alone).alone = .ok c)
    {part : Nat} {first : RigidStructure shape ℝ} (found : c.structures[part]? = some first)
    (free : first.motion = .free) {mass : MassProperties ℝ}
    (weighed : (first.massAt first.positions settings.quadratureOrder).alone = .ok mass)
    (flow : FlowTransfer ℝ σ) (state : σ) {earlier : List (Call shape ℝ)}
    (unopened : NeverSucceeds flow Call.Opens (c, state) earlier) {velocity : RigidVelocity ℝ}
    (given : (runAlone flow (c, state) earlier).1.structures[part]?.map (·.velocity.current) =
      some velocity) (fits : velocity.Fits shape.dim) {steps : List (StepCalls shape ℝ)}
    (complete : StepCalls.AllComplete flow part (runAlone flow (c, state) earlier) steps) :
    let time := (steps.map (·.length)).sum
    let center := mass.center + velocity.translational.scale time
    let now := runAlone flow (c, state) (earlier ++ steps.flatMap (·.calls))
    (∃ body, now.1.structures[part]? = some body ∧
      ∀ node (inside : node < first.mesh.vertices.size),
        body.positions.vector shape.dim node = .ok (center +
          (rotation velocity.rotational time).apply (first.mesh.place node inside - mass.center))) ∧
      ∀ waiting current new, NeverSucceeds flow Call.Opens now waiting →
        Call.Succeeds (.preprocess current new) flow (runAlone flow now waiting) →
          ∃ body, (serveAlone flow (runAlone flow now waiting)
            (.preprocess current new)).1.structures[part]? = some body ∧
              body.currentMass.center = center := by
  intro time center now
  rcases setsOut_of_register registered found free weighed fits with ⟨out, closed⟩
  have inside : part < descriptions.length := by
    rw [← (standing_of_register rfl registered).1.length_eq]
    exact (List.getElem?_eq_some_iff.mp found).1
  have waited := (rests_of_register registered found out closed).rests_of_waits inside unopened
    (fun _ => id) fun _ _ _ _ _ _ => trivial
  have started : (runAlone flow (c, state) earlier).1.Standing settings descriptions.length
      (Idle part (Rests mass velocity first 0 (· = velocity))) := by
    rcases waited.exists_structure inside with ⟨body, found', idle⟩
    rcases idle rfl with ⟨closed, rests⟩
    rw [found', Option.map_some, Option.some.injEq] at given
    exact waited.idle_of_getElem? found' closed { rests with allowed := given }
  have rested : now.1.Standing settings descriptions.length
      (Idle part (Rests mass velocity first time (· = velocity))) := by
    have arrived := started.rests_of_allComplete out inside complete
    rw [zero_add] at arrived
    rw [show now = _ from runAlone_append ..]
    exact arrived
  constructor
  · rcases rested.exists_structure inside with ⟨body, found', idle⟩
    refine ⟨body, found', fun node within => ?_⟩
    rw [(idle rfl).2.onPath.vector_eq node within, RigidVelocity.along_apply]
  · intro waiting current new unopened opens
    have idle : now.1.Standing settings descriptions.length
        (Idle part (Rests mass velocity first time fun _ => True)) :=
      rested.imp fun _ _ idle same => ⟨(idle same).1, { (idle same).2 with allowed := trivial }⟩
    have opened := (idle.rests_of_waits inside unopened (fun _ => id)
      fun _ _ _ _ _ _ => trivial).center_of_opens out opens
    rcases opened.exists_structure inside with ⟨body, found', center_eq⟩
    refine ⟨body, found', ?_⟩
    rw [center_eq rfl, RigidVelocity.along_center]

open StructureDescription MassProperties in
/--
The square slides along an axis and turns, in two steps of different lengths.  Its
center of mass and its corners are where the whole time takes them.
-/
theorem free_motion_turningSquare :
    ∃ c, (register ⟨"square", 0, 1 / 10⟩ [turningSquare] .alone).alone = .ok c ∧
      let now := runAlone (AnalyticFlow.atRest .two) (c, SpreadTally.empty)
        ((StepCalls.plainSteps [(0, 1), (1, 3 / 2)]).flatMap (·.calls))
      (∃ body, now.1.structures[0]? = some body ∧
        ∀ node (inside : node < square.vertices.size), body.positions.vector .two node =
          .ok (⟨5 / 2, 1, 0⟩ +
            (rotation ⟨0, 0, 2⟩ (3 / 2)).apply (square.place node inside - ⟨1, 1, 0⟩))) ∧
      ∃ body, (serveAlone (AnalyticFlow.atRest .two) now
        (.preprocess (3 / 2) 2)).1.structures[0]? = some body ∧
          body.currentMass.center = ⟨5 / 2, 1, 0⟩ := by
  rcases exists_register_turningSquare with ⟨c, registered⟩
  have standing := (standing_of_register rfl registered).1
  have created := setUp_of_register_turningSquare registered
  have free : ∀ body ∈ c.structures, body.motion = .free := fun body member =>
    (fields_of_setUp (created body member)).2.2.1
  have ready := ready_turningSquare rfl registered
  rcases standing.exists_structure Nat.one_pos with ⟨first, found, -⟩
  have member := List.mem_of_getElem? found
  rcases exists_mass_turningSquare (created _ member) with ⟨mass, weighed, center⟩
  have total : ((StepCalls.plainSteps [(0, 1), (1, 3 / 2)] : List (StepCalls .triangle ℝ)).map
      (·.length)).sum = 3 / 2 := by
    norm_num [StepCalls.plainSteps, StepCalls.plain, StepCalls.length]
  have arrived : (⟨1, 1, 0⟩ : Vec3 ℝ) + Vec3.scale ⟨1, 0, 0⟩ (3 / 2) = ⟨5 / 2, 1, 0⟩ := by
    ext <;> norm_num
  rcases @Ready.run_plainSteps .triangle _ _ _ (AnalyticFlow.atRest .two) [(0, 1), (1, 3 / 2)]
    (c, SpreadTally.empty) ready with ⟨complete, again⟩
  have given : c.structures[0]?.map (·.velocity.current) = some ⟨⟨1, 0, 0⟩, ⟨0, 0, 2⟩⟩ := by
    rw [found, Option.map_some, velocity_turningSquare (created _ member)]
  have moves := @free_motion .triangle _ _ _ _ registered _ _ found (free _ member) _ weighed
    (AnalyticFlow.atRest .two) SpreadTally.empty [] trivial _ given fits_turningSquare _
    (complete 0)
  simp only [total, center, arrived, List.nil_append] at moves
  rw [(fields_of_setUp (created _ member)).1] at moves
  rcases moves with ⟨moved, next⟩
  have opened := next [] (3 / 2) 2 trivial
  rw [runAlone_nil] at opened
  exact ⟨c, registered, moved, opened (again.serve_preprocess (3 / 2) 2 _).1⟩

end Coordinator

end ImmersedBody
