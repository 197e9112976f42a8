import ImmersedBody.Proofs.Coordinator.BeforePrediction
import ImmersedBody.Proofs.Coordinator.Velocities
import ImmersedBody.Proofs.TimeStep.Closing

/-!
# The last midpoint step

A constraint solver may update the positions of the new time any number of times in a step.
Only the last update that succeeds matters: it moves the current positions about the current
center of mass with the rigid velocity of the half time, and it overwrites whatever earlier
updates have left.  This is `last_midpoint_decides`, which also says that an update that is
repeated with the same velocities changes nothing.
-/

namespace ImmersedBody

open ImmersedBody.Action

variable {α σ : Type} [Scalar α] {shape : Shape}

/-! ## Displacements that forget what was there -/

namespace NodalField

variable {dim : Dim} {displacement : RigidDisplacement α}

/-- If there are whole nodes only, every entry is overwritten. -/
theorem displacedEntries_congr {source target target' : Array α}
    (whole : source.size % dim.size = 0) (same : target.size = source.size)
    (same' : target'.size = source.size) :
    displacedEntries dim displacement source target =
      displacedEntries dim displacement source target' := by
  apply Array.ext
  · simp [displacedEntries, same, same']
  · intro i inside inside'
    have below : i / dim.size < source.size / dim.size := by
      apply (Nat.div_lt_iff_lt_mul dim.size_pos).mpr
      rw [Nat.div_mul_cancel (Nat.dvd_of_mod_eq_zero whole), ← same]
      simpa [displacedEntries] using inside
    simp [displacedEntries, below]

/-- If there are no ghosts either, nothing is left of the field that is overwritten. -/
theorem displace_congr {source target target' : NodalField α}
    (whole : source.owned.size % dim.size = 0) (ghostless : source.layout.ghosts = #[])
    (same : target.layout = source.layout) (same' : target'.layout = source.layout) :
    displace dim displacement source target = displace dim displacement source target' := by
  have size_eq {field : NodalField α} (fits : field.layout = source.layout) :
      field.owned.size = source.owned.size := by
    rw [field.owned_size, fits, source.owned_size]
  have entries : displacedEntries dim displacement source.owned target.owned =
      displacedEntries dim displacement source.owned target'.owned :=
    displacedEntries_congr whole (size_eq same) (size_eq same')
  have copies {field : NodalField α} (fits : field.layout = source.layout) :
      field.ghosts = #[] := by
    apply Array.eq_empty_of_size_eq_zero
    rw [field.ghosts_size, fits, ghostless, Array.size_empty]
  simp only [displace, same, same', ne_eq, not_true_eq_false, if_false, whole, if_true, write,
    entries, copies same, copies same']

end NodalField

namespace RigidStructure

/--
Positions to which a rigid velocity leads over a step from the current positions of a structure,
about its current center of mass, whatever field they are written into.
-/
def LeadsTo (body : RigidStructure shape α) (window : StepWindow α) (velocity : RigidVelocity α)
    (after : NodalField α) : Prop :=
  ∀ target : NodalField α, target.layout = body.positions.layout → ∃ moved,
    NodalField.displace shape.dim
        (.about body.currentMass.center velocity.translational velocity.rotational window.length)
        body.positions target = .ok () moved ∧
      after = { moved with synchronized := true }

variable {body : RigidStructure shape α} {window : StepWindow α} {velocity : RigidVelocity α}
  {after after' : NodalField α}

/-- A velocity leads to one place only. -/
theorem LeadsTo.unique (leads : body.LeadsTo window velocity after)
    (leads' : body.LeadsTo window velocity after') : after = after' := by
  rcases leads body.positions rfl with ⟨moved, displaced, rfl⟩
  rcases leads' body.positions rfl with ⟨moved', displaced', rfl⟩
  cases displaced.symm.trans displaced'
  rfl

/-- What a displacement of a sound structure leaves is where the velocity leads. -/
theorem Sound.leadsTo_of_displace (sound : body.Sound) (ghostless : body.layout.ghosts = #[])
    {target moved : NodalField α} (fits : target.layout = body.positions.layout)
    (displaced : NodalField.displace shape.dim
      (.about body.currentMass.center velocity.translational velocity.rotational window.length)
      body.positions target = .ok () moved) :
    body.LeadsTo window velocity { moved with synchronized := true } := by
  intro other fits'
  have whole : body.positions.owned.size % shape.dim.size = 0 := by
    rw [body.positions.owned_size, sound.positions, sound.owned, IndexRange.length, Nat.sub_zero,
      Nat.mul_mod_left]
  rw [← sound.positions] at ghostless
  refine ⟨moved, ?_, rfl⟩
  rw [NodalField.displace_congr whole ghostless fits' fits]
  exact displaced

end RigidStructure

namespace Coordinator

open RigidStructure

variable {body : RigidStructure shape α} {window : StepWindow α}

/-- A midpoint step moves a structure to where its velocity of the half time leads. -/
theorem ends_update_leads {seat : Seat} {part : Nat} {step : StepFields α}
    (serial : seat.size = 1) (sound : body.Sound) (ghostless : Ghostless body)
    (opened : body.step = some step) :
    (update seat window part).Ends body
      (fun _ after => ∃ newPositions, body.LeadsTo window body.velocity.half newPositions ∧
        after = { body with step := some { step with newPositions } })
      fun _ => False := by
  have fits : step.newPositions.layout = body.positions.layout :=
    (sound.step step opened).newPositions.trans sound.positions.symm
  have spans : body.layout.Spans shape.dim body.mesh.vertices.size := ⟨sound.block, sound.owned⟩
  rcases spans.exists_displace sound.positions (sound.step step opened).newPositions
    (RigidDisplacement.about body.currentMass.center body.velocity.half.translational
      body.velocity.half.rotational window.length) with ⟨moved, displaced, -⟩
  rw [update]
  simp only [ends_bind, ends_get, ends_stepFields, opened, ends_part, displaced, ends_collective,
    NodalField.alone_close serial, ends_set]
  exact ⟨_, sound.leadsTo_of_displace ghostless fits displaced, rfl⟩

/-- The velocity that a call moves a structure with to the new time, if it succeeds. -/
def Call.movedWith (flow : FlowTransfer α σ) (part : Nat) (state : Coordinator shape α × σ) :
    Call shape α → Option (RigidVelocity α)
  | advance .midpoint current new =>
    if Call.Succeeds (.advance .midpoint current new) flow state then
      state.1.structures[part]?.map (·.velocity.half)
    else none
  | _ => none

/--
The velocity of the half time that a structure had at the last midpoint step that succeeded in a
run, if there is one.
-/
def lastMovedWith (flow : FlowTransfer α σ) (part : Nat) :
    Coordinator shape α × σ → List (Call shape α) → Option (RigidVelocity α)
  | _, [] => none
  | state, call :: calls =>
    (lastMovedWith flow part (serveAlone flow state call) calls).or (call.movedWith flow part state)

/-! ## One structure in a step -/

/--
A structure in a step, with the positions and mass properties that it had at first.  Its positions
at the new time are those to which a velocity leads, or the current ones if it was not moved.
-/
structure Placed (order : Nat) (window : StepWindow α) (first : RigidStructure shape α)
    (moved : Option (RigidVelocity α)) (body : RigidStructure shape α) : Prop where
  positions_eq : body.positions = first.positions
  mass_eq : body.currentMass = first.currentMass
  weighed : (body.massAt body.positions order).alone = .ok body.currentMass
  exists_step : ∃ step, body.step = some step ∧
    match moved with
    | none => step.newPositions = body.positions
    | some velocity => body.LeadsTo window velocity step.newPositions

/-- Each structure is placed, given where it was at first and what has moved it. -/
def PlacedFrom (order : Nat) (window : StepWindow α) (firsts : List (RigidStructure shape α))
    (moved : Nat → Option (RigidVelocity α)) (part : Nat) (body : RigidStructure shape α) : Prop :=
  ∃ first, firsts[part]? = some first ∧ Placed order window first (moved part) body

/-- A structure that has been moved with the velocity of the half time that it still has. -/
def InPlace (order : Nat) (window : StepWindow α) (body : RigidStructure shape α) : Prop :=
  ∃ first, Placed order window first (some body.velocity.half) body

variable {order : Nat} {firsts : List (RigidStructure shape α)}
  {moved : Nat → Option (RigidVelocity α)} {first : RigidStructure shape α}
  {velocity : Option (RigidVelocity α)}

/-- Other fields of the step do not matter. -/
theorem Placed.withStep (placed : Placed order window first velocity body)
    {fields fields' : StepFields α} (opened : body.step = some fields)
    (same : fields'.newPositions = fields.newPositions) :
    Placed order window first velocity { body with step := some fields' } := by
  rcases placed with ⟨positions, mass, weighed, step, found, placed⟩
  rw [opened, Option.some.injEq] at found
  subst found
  rw [← same] at placed
  exact ⟨positions, mass, weighed, fields', rfl, placed⟩

/-- The mass properties are up to date, so computing them once more changes nothing. -/
theorem Placed.withMass (placed : Placed order window first velocity body)
    {mass : MassProperties α}
    (computed : (body.massAt body.positions order).alone = .ok mass) :
    Placed order window first velocity (body.withMass mass) := by
  have same : mass = body.currentMass := Except.ok.inj (computed.symm.trans placed.weighed)
  subst same
  exact ⟨placed.positions_eq, placed.mass_eq, placed.weighed, placed.exists_step⟩

theorem Placed.isSome (placed : Placed order window first velocity body) :
    body.step.isSome = true := by
  rcases placed.exists_step with ⟨step, found, -⟩
  rw [found]
  rfl

theorem ignoresExchange_placedFrom : IgnoresExchange
    (PlacedFrom order window firsts moved : Nat → RigidStructure shape α → Prop) where
  step := by
    rintro part body fields fields' opened - same ⟨first, found, placed⟩
    exact ⟨first, found, placed.withStep opened same⟩
  flow := by
    rintro part body _ ⟨first, found, placed⟩
    exact ⟨first, found, placed.positions_eq, placed.mass_eq, placed.weighed, placed.exists_step⟩

/-- A prediction moves nothing to the new time. -/
theorem Placed.ends_predict (placed : Placed order window first velocity body) {seat : Seat}
    (serial : seat.size = 1) {objectName : String} {halfOrder part : Nat}
    {predicted : StepWindow α} :
    (predict seat objectName halfOrder predicted part).Ends body
      (fun _ after => Placed order window first velocity after)
      fun after => Placed order window first velocity after := by
  apply (ends_predict_frame serial).imp
  · rintro _ _ ⟨step, halfPositions, halfMass, opened, -, -, rfl⟩
    have later := placed.withStep opened
      (show ({ step with halfPositions } : StepFields α).newPositions = step.newPositions from rfl)
    exact ⟨later.positions_eq, later.mass_eq, later.weighed, later.exists_step⟩
  · rintro _ (rfl | ⟨step, halfPositions, opened, -, rfl⟩)
    · exact placed
    · exact placed.withStep opened rfl

/-- An update that is no midpoint step moves nothing to the new time. -/
theorem Placed.ends_advancing (placed : Placed order window first velocity body)
    {c : Coordinator shape α} (serial : c.seat.size = 1) {rule : AdvanceRule}
    (other : rule ≠ .midpoint) {advanced : StepWindow α} {part : Nat} :
    (advancing c rule advanced part).Ends body
      (fun _ after => Placed order window first velocity after)
      fun after => Placed order window first velocity after := by
  cases rule with
  | forwardEuler =>
      exact placed.ends_predict serial
  | midpoint =>
      exact absurd rfl other
  | trapezoidal =>
      exact placed

/-- A midpoint step places a structure where its velocity of the half time leads. -/
theorem Placed.ends_update (placed : Placed order window first velocity body) {seat : Seat}
    (serial : seat.size = 1) (sound : body.Sound) (ghostless : Ghostless body) {part : Nat} :
    (update seat window part).Ends body
      (fun _ after => Placed order window first (some body.velocity.half) after)
      fun _ => False := by
  rcases placed with ⟨positions, mass, weighed, step, opened, -⟩
  apply (ends_update_leads serial sound ghostless opened).imp
  · rintro _ _ ⟨newPositions, leads, rfl⟩
    exact ⟨positions, mass, weighed, _, rfl, leads⟩
  · exact fun _ impossible => impossible

/-- Moving a structure to where it is changes nothing. -/
theorem InPlace.ends_update (inPlace : InPlace order window body) {seat : Seat}
    (serial : seat.size = 1) (sound : body.Sound) (ghostless : Ghostless body) {part : Nat} :
    (update seat window part).Ends body (fun _ after => after = body) fun _ => False := by
  rcases inPlace with ⟨first, -, -, -, step, opened, leads⟩
  apply (ends_update_leads serial sound ghostless opened).imp
  · rintro _ _ ⟨newPositions, leads', rfl⟩
    rw [leads'.unique leads, ← opened]
  · exact fun _ impossible => impossible

/-! ## Calls within a step -/

section

variable {settings : Settings α} {count : Nat} {c : Coordinator shape α} {state : σ}
  {flow : FlowTransfer α σ} {call : Call shape α}

/-- A coordinator in a step whose structures own all their entries. -/
structure Amid (settings : Settings α) (count : Nat) (window : StepWindow α)
    (c : Coordinator shape α) : Prop where
  ghostless : c.Standing settings count fun _ body => Ghostless body
  sound : c.Sound
  inStep : c.protocol.phase.inStep = true
  window_eq : c.protocol.window = some window

theorem Amid.serve (amid : c.Amid settings count window)
    (stays : (serveAlone flow (c, state) call).1.protocol.phase.inStep = true) :
    (serveAlone flow (c, state) call).1.Amid settings count window where
  ghostless := amid.ghostless.serve_ghostless
  sound := amid.sound.serve
  inStep := stays
  window_eq := (sameStep_serve_open amid.sound.serial amid.inStep stays).window_eq.trans
    amid.window_eq

/-- A midpoint step that succeeds places every structure where its velocity leads. -/
theorem Standing.serve_midpoint_placed
    (standing : c.Standing settings count (PlacedFrom order window firsts moved))
    (amid : c.Amid settings count window) {current new : α}
    (succeeds : Call.Succeeds (.advance .midpoint current new) flow (c, state)) :
    (serveAlone flow (c, state) (.advance .midpoint current new)).1.Standing settings count
      fun part after => ∃ before, c.structures[part]? = some before ∧
        PlacedFrom order window firsts (fun _ => some before.velocity.half) part after := by
  have known : c.Standing settings count fun part body =>
      c.structures[part]? = some body ∧ PlacedFrom order window firsts moved part body := {
    standing with
    each := fun part body found => ⟨found, standing.each part body found⟩ }
  have moves (window' : StepWindow α) (opened : c.protocol.window = some window') (part : Nat)
      (body : RigidStructure shape α) (fit : c.structures[part]? = some body ∧
        PlacedFrom order window firsts moved part body) :
      (advancing c .midpoint window' part).Ends body
        (fun _ after => ∃ before, c.structures[part]? = some before ∧
          PlacedFrom order window firsts (fun _ => some before.velocity.half) part after)
        fun _ => True := by
    rw [amid.window_eq, Option.some.injEq] at opened
    subst opened
    rcases fit with ⟨found, first, first_eq, placed⟩
    apply (placed.ends_update standing.serial (amid.sound.sound body (List.mem_of_getElem? found))
      (amid.ghostless.each part body found)).imp _ fun _ _ => trivial
    exact fun _ after later => ⟨body, found, first, first_eq, later⟩
  exact (known.advanced_of_succeeds moves succeeds).1

/-- Only a midpoint step that succeeds moves structures to the new time. -/
theorem Call.movedWith_eq_none {before : Coordinator shape α × σ}
    (still : ∀ current new, call = .advance .midpoint current new → ¬ call.Succeeds flow before)
    (part : Nat) : call.movedWith flow part before = none := by
  cases call with
  | advance rule current new =>
      cases rule with
      | midpoint =>
          exact if_neg (still current new rfl)
      | _ =>
          rfl
  | _ =>
      rfl

/-- A call that leaves the step open and moves nothing leaves structures where they are. -/
theorem Standing.serve_still
    (standing : c.Standing settings count
      (PlacedFrom settings.quadratureOrder window firsts moved))
    (amid : c.Amid settings count window)
    (stays : (serveAlone flow (c, state) call).1.protocol.phase.inStep = true)
    (still : ∀ current new, call = .advance .midpoint current new →
      ¬ call.Succeeds flow (c, state)) :
    (serveAlone flow (c, state) call).1.Standing settings count
      (PlacedFrom settings.quadratureOrder window firsts moved) := by
  apply standing.serve_open _ amid.inStep ignoresExchange_placedFrom.ignoresSolver stays
  · rintro time rfl
    apply serveAlone_of_ends fun after => after.1.Standing settings count _
    exact (standing.ends_interpolate ignoresExchange_placedFrom).imp (fun _ _ kept => kept.1)
      fun _ kept => kept.1
  · rintro rule current new rfl
    by_cases midpoint : rule = .midpoint
    · subst midpoint
      have inside : ∀ body ∈ c.structures, body.step.isSome = true := by
        intro body member
        rcases List.mem_iff_getElem?.mp member with ⟨part, found⟩
        rcases standing.each part body found with ⟨first, -, placed⟩
        exact placed.isSome
      rcases amid.sound.serve_advance_fails inside (still current new rfl) with
        same | ⟨predicting, -⟩
      · rw [same]
        exact standing
      · cases predicting
    · have moves (window' : StepWindow α) (_ : c.protocol.window = some window') (part : Nat)
          (body : RigidStructure shape α)
          (fit : PlacedFrom settings.quadratureOrder window firsts moved part body) :
          (advancing c rule window' part).Ends body
            (fun _ after => PlacedFrom settings.quadratureOrder window firsts moved part after)
            fun after => PlacedFrom settings.quadratureOrder window firsts moved part after := by
        rcases fit with ⟨first, found, placed⟩
        exact (placed.ends_advancing standing.serial midpoint).imp
          (fun _ _ later => ⟨first, found, later⟩) fun _ later => ⟨first, found, later⟩
      apply serveAlone_of_ends fun after => after.1.Standing settings count _
      rw [Call.serve, ends_first]
      exact (standing.ends_advance moves fun _ _ fit => fit).imp (fun _ _ kept => kept.1)
        fun _ kept => kept.1
  · rintro number dofs rfl
    have sets : (Call.updateVelocity number dofs : Call shape α).Sets := trivial
    apply serveAlone_of_ends fun after => after.1.Standing settings count _
    apply (standing.ends_setting sets flow state).imp
    · intro _ _ kept
      refine (kept ?_).1
      rintro part body velocity - ⟨first, found, placed⟩
      exact ⟨first, found, placed.positions_eq, placed.mass_eq, placed.weighed, placed.exists_step⟩
    · exact fun _ kept => kept.1
  · rintro - part body mass ⟨first, found, placed⟩ computed
    exact ⟨first, found, placed.withMass computed⟩

/-- A call that leaves the step open places structures anew, or leaves them where they are. -/
theorem Standing.serve_placed
    (standing : c.Standing settings count
      (PlacedFrom settings.quadratureOrder window firsts moved))
    (amid : c.Amid settings count window)
    (stays : (serveAlone flow (c, state) call).1.protocol.phase.inStep = true) :
    (serveAlone flow (c, state) call).1.Standing settings count
      (PlacedFrom settings.quadratureOrder window firsts fun part =>
        (call.movedWith flow part (c, state)).or (moved part)) := by
  by_cases updates : ∃ current new, call = .advance .midpoint current new ∧
      call.Succeeds flow (c, state)
  · rcases updates with ⟨current, new, rfl, succeeds⟩
    apply (standing.serve_midpoint_placed amid succeeds).imp
    rintro part after ⟨before, found, first, first_eq, placed⟩
    refine ⟨first, first_eq, ?_⟩
    simp only [Call.movedWith, if_pos succeeds, found, Option.map_some, Option.some_or]
    exact placed
  · have still (current new : α) (same : call = .advance .midpoint current new) :
        ¬ call.Succeeds flow (c, state) :=
      fun succeeds => updates ⟨current, new, same, succeeds⟩
    simp only [Call.movedWith_eq_none still, Option.none_or]
    exact standing.serve_still amid stays still

/-- As long as a step stays open, the last midpoint step that succeeds places the structures. -/
theorem Standing.run_placed {within : List (Call shape α)} :
    ∀ {start : Coordinator shape α × σ} {moved : Nat → Option (RigidVelocity α)},
      start.1.Standing settings count
          (PlacedFrom settings.quadratureOrder window firsts moved) →
        start.1.Amid settings count window → StaysOpen flow start within →
          (runAlone flow start within).1.Standing settings count
              (PlacedFrom settings.quadratureOrder window firsts fun part =>
                (lastMovedWith flow part start within).or (moved part)) ∧
            (runAlone flow start within).1.Amid settings count window := by
  induction within with
  | nil =>
      exact fun standing amid _ => ⟨standing, amid⟩
  | cons call within ih =>
      intro start moved standing amid stays
      have later := ih (standing.serve_placed amid stays.first) (amid.serve stays.first) stays.tail
      -- What the first call moves counts only if no later call moves the structure.
      simp only [← Option.or_assoc] at later
      exact later

/-! ## Updates that are repeated -/

/-- A call that gives no velocity to any structure leaves all velocities. -/
theorem Standing.serve_velocities {known : Nat → RigidStructure shape α → Prop}
    (standing : c.Standing settings count known) (inStep : c.protocol.phase.inStep = true)
    (stays : (serveAlone flow (c, state) call).1.protocol.phase.inStep = true)
    (ungiven : ∀ part, call.given flow part (c, state) = none) :
    (serveAlone flow (c, state) call).1.Standing settings count fun part after =>
      ∃ before, c.structures[part]? = some before ∧ after.velocity = before.velocity := by
  have own : c.Standing settings count fun part after =>
      ∃ before, c.structures[part]? = some before ∧ after.velocity = before.velocity := {
    standing with
    each := fun part body found => ⟨body, found, rfl⟩ }
  have ignores : IgnoresExchange fun part (after : RigidStructure shape α) =>
      ∃ before, c.structures[part]? = some before ∧ after.velocity = before.velocity := {
    step := fun _ _ _ _ _ _ _ kept => kept
    flow := fun _ _ _ kept => kept }
  apply own.serve_open _ inStep ignores.ignoresSolver stays
  · rintro time rfl
    apply serveAlone_of_ends fun after => after.1.Standing settings count _
    exact (own.ends_interpolate ignores).imp (fun _ _ kept => kept.1) fun _ kept => kept.1
  · rintro rule current new rfl
    have moves (window : StepWindow α) (_ : c.protocol.window = some window) (part : Nat)
        (body : RigidStructure shape α)
        (kept : ∃ before, c.structures[part]? = some before ∧ body.velocity = before.velocity) :
        (advancing c rule window part).Ends body
          (fun _ after => ∃ before, c.structures[part]? = some before ∧
            after.velocity = before.velocity)
          fun after => ∃ before, c.structures[part]? = some before ∧
            after.velocity = before.velocity := by
      apply (ends_advancing_frame standing.serial rule window).imp
      · rintro _ _ ⟨step, halfMass, rfl⟩
        exact kept
      · rintro _ ⟨step, halfMass, rfl⟩
        exact kept
    apply serveAlone_of_ends fun after => after.1.Standing settings count _
    rw [Call.serve, ends_first]
    exact (own.ends_advance moves fun _ _ kept => kept).imp (fun _ _ kept => kept.1)
      fun _ kept => kept.1
  · rintro number dofs rfl
    have fails : ¬ Call.Succeeds (.updateVelocity number dofs) flow (c, state) := by
      intro succeeds
      have given := ungiven number
      rw [Call.given, if_pos ⟨rfl, succeeds⟩] at given
      cases given
    have sets : (Call.updateVelocity number dofs : Call shape α).Sets := trivial
    exact (serveAlone_of_stops fails (own.ends_setting sets flow state)).1
  · exact fun _ _ _ _ kept _ => kept

/-- A call moves a structure with the velocity of the half time that it has, if at all. -/
theorem Call.or_movedWith (flow : FlowTransfer α σ) (part : Nat) (call : Call shape α) :
    (call.movedWith flow part (c, state)).or (c.structures[part]?.map (·.velocity.half)) =
      c.structures[part]?.map (·.velocity.half) := by
  cases call with
  | advance rule current new =>
      cases rule with
      | midpoint =>
          rw [Call.movedWith]
          split
          · exact Option.or_self
          · rfl
      | _ =>
          rfl
  | _ =>
      rfl

/-- As long as no velocities are given, structures that have been moved stay in place. -/
theorem Standing.serve_inPlace
    (standing : c.Standing settings count fun _ body =>
      InPlace settings.quadratureOrder window body)
    (amid : c.Amid settings count window)
    (stays : (serveAlone flow (c, state) call).1.protocol.phase.inStep = true)
    (ungiven : ∀ part, call.given flow part (c, state) = none) :
    (serveAlone flow (c, state) call).1.Standing settings count fun _ body =>
      InPlace settings.quadratureOrder window body := by
  -- Structures in place are placed by their own velocity, which is also what a midpoint step takes.
  have placed : c.Standing settings count (PlacedFrom settings.quadratureOrder window c.structures
      fun part => c.structures[part]?.map (·.velocity.half)) := by
    refine { standing with each := ?_ }
    intro part body found
    rcases standing.each part body found with ⟨first, placed⟩
    refine ⟨body, found, ?_⟩
    simp only [found, Option.map_some]
    exact ⟨rfl, rfl, placed.weighed, placed.exists_step⟩
  have served := placed.serve_placed amid stays
  have velocities := standing.serve_velocities amid.inStep stays ungiven
  refine { served with each := ?_ }
  intro part after found
  rcases served.each part after found with ⟨first, was, placed⟩
  rcases velocities.each part after found with ⟨before, was', same⟩
  simp only [Call.or_movedWith] at placed
  rw [was', Option.map_some, ← same] at placed
  exact ⟨first, placed⟩

/-- As long as no velocities are given in an open step, structures stay in place. -/
theorem Standing.run_inPlace {within : List (Call shape α)} :
    ∀ {start : Coordinator shape α × σ},
      start.1.Standing settings count
          (fun _ body => InPlace settings.quadratureOrder window body) →
        start.1.Amid settings count window → StaysOpen flow start within →
          (∀ part, lastGiven flow part start within = none) →
            (runAlone flow start within).1.Standing settings count fun _ body =>
              InPlace settings.quadratureOrder window body := by
  induction within with
  | nil =>
      exact fun standing _ _ _ => standing
  | cons call within ih =>
      intro start standing amid stays ungiven
      have none (part : Nat) := Option.or_eq_none_iff.mp (ungiven part)
      exact ih (standing.serve_inPlace amid stays.first fun part => (none part).2)
        (amid.serve stays.first) stays.tail fun part => (none part).1

/-- A midpoint step that succeeds puts all structures in place. -/
theorem Standing.inPlace_of_midpoint
    (standing : c.Standing settings count (PlacedFrom order window firsts moved))
    (amid : c.Amid settings count window) {current new : α}
    (stays : (serveAlone flow (c, state) (.advance .midpoint current new)).1.protocol.phase.inStep =
      true)
    (succeeds : Call.Succeeds (.advance .midpoint current new) flow (c, state)) :
    (serveAlone flow (c, state) (.advance .midpoint current new)).1.Standing settings count
      fun _ body => InPlace order window body := by
  have served := standing.serve_midpoint_placed amid succeeds
  have velocities := standing.serve_velocities amid.inStep stays fun _ => rfl
  refine { served with each := ?_ }
  intro part after found
  rcases served.each part after found with ⟨before, was, first, -, placed⟩
  rcases velocities.each part after found with ⟨before', was', same⟩
  rw [was, Option.some.injEq] at was'
  subst was'
  rw [← same] at placed
  exact ⟨first, placed⟩

omit [Scalar α] in
/-- What a midpoint step does to the protocol. -/
theorem eq_of_advance_midpoint {protocol : StepProtocol α}
    {outcome : StepOutcome α (StepWindow α)} (accepted : protocol.advance .midpoint = .ok outcome) :
    protocol.window = some outcome.value ∧
      outcome.protocol = { protocol with phase := .positionAdvanced } := by
  rcases StepProtocol.advance_eq_ok_iff.mp accepted with ⟨next, window, allowed, opened, -, rfl⟩
  rcases Phase.after_midpoint_eq_ok_iff.mp allowed with ⟨-, rfl⟩
  refine ⟨opened, ?_⟩
  show ({ protocol with phase := _, predicted := protocol.predicted || false } : StepProtocol α) = _
  rw [Bool.or_false]

/-- A midpoint step with structures in place changes nothing but the phase. -/
theorem Standing.ends_midpoint_inPlace
    (standing : c.Standing settings count fun _ body =>
      InPlace settings.quadratureOrder window body)
    (amid : c.Amid settings count window) {current new : α} :
    (advance .midpoint current new : Work shape α Unit).Ends c
      (fun _ after => after = { c with protocol := { c.protocol with phase := .positionAdvanced } })
      fun after => after = c := by
  cases checked : c.checkTimes .midpoint current new with
  | error violation =>
      rw [advance]
      simp only [ends_bind, ends_get, ends_checking, checked]
  | ok _ =>
      cases accepted : c.protocol.advance .midpoint with
      | error violation =>
          rw [advance]
          simp only [ends_bind, ends_get, ends_checking, ends_attempting, ends_committing, checked,
            accepted]
      | ok outcome =>
          rcases eq_of_advance_midpoint accepted with ⟨opened, protocol⟩
          rw [amid.window_eq, Option.some.injEq] at opened
          have works : (forEachStructure (update c.seat outcome.value)).Ends
              { c with protocol := outcome.protocol }
              (fun _ after => after = { c with protocol := outcome.protocol })
              fun _ => False := by
            apply Coordinator.ends_forEachStructure (fun _ body after => after = body)
              fun _ _ _ => False
            · intro part body member
              have found := List.mk_mem_zipIdx_iff_getElem?.mp member
              rw [← opened]
              exact (standing.each part body found).ends_update standing.serial
                (amid.sound.sound body (List.mem_of_getElem? found))
                (amid.ghostless.each part body found)
            · intro structures finished
              have all : List.Forall₂ (· = ·) c.structures structures :=
                finished.forall₂ fun _ _ _ same => same.symm
              rw [List.forall₂_eq_eq_eq] at all
              rw [← all]
            · intro structures stopped
              rcases stopped.exists_getElem? with ⟨_, _, _, -, impossible⟩
              exact impossible
          rw [advance]
          simp only [ends_bind, ends_get, ends_checking, ends_attempting, ends_committing, checked,
            accepted, ends_tell]
          rw [← protocol]
          exact works.imp (fun _ _ same => same) fun _ impossible => impossible.elim

end

/-! ## Runs -/

section

variable {settings : Settings α} {descriptions : List (StructureDescription shape α)} {seat : Seat}

/--
Whatever has been called before a prediction that succeeds, and whatever is called after it in the
same step: the positions of the new time of each structure are those to which the velocity of the
half time at the last midpoint step that succeeded leads from the current positions, about the
center of mass that these have, and the current positions if there was no such midpoint step.  As
long as no velocity is updated after a midpoint step, another one changes nothing but the phase.
-/
theorem last_midpoint_decides (serial : seat.size = 1) {c : Coordinator shape α}
    (attained : Attainable settings descriptions seat c) (flow : FlowTransfer α σ) (state : σ)
    {current new : α}
    (predicts : Call.Succeeds (.advance .forwardEuler current new) flow (c, state))
    {start now : Coordinator shape α × σ}
    (start_eq : start = serveAlone flow (c, state) (.advance .forwardEuler current new))
    {within : List (Call shape α)} (stays : StaysOpen flow start within)
    (now_eq : now = runAlone flow start within) :
    ∃ window, now.1.protocol.window = some window ∧
      now.1.structures.length = descriptions.length ∧
      (∀ (part : Nat) (body : RigidStructure shape α), now.1.structures[part]? = some body →
        ∃ first, start.1.structures[part]? = some first ∧
          Placed settings.quadratureOrder window first (lastMovedWith flow part start within)
            body) ∧
      ∀ (before between : List (Call shape α)) (t₀ t₁ : α),
        within = before ++ .advance .midpoint t₀ t₁ :: between →
          Call.Succeeds (.advance .midpoint t₀ t₁) flow (runAlone flow start before) →
            (∀ part, lastGiven flow part
              (serveAlone flow (runAlone flow start before) (.advance .midpoint t₀ t₁)) between =
                none) →
              ∀ t₂ t₃, serveAlone flow now (.advance .midpoint t₂ t₃) = now ∨
                now.1.protocol.phase ≠ .positionAdvanced ∧
                  serveAlone flow now (.advance .midpoint t₂ t₃) =
                    ({ now.1 with
                      protocol := { now.1.protocol with phase := .positionAdvanced } }, now.2) := by
  have unmoved := attained.unmoved_of_predicts serial predicts
  have ghostless : (serveAlone flow (c, state) (.advance .forwardEuler current new)).1.Standing
      settings descriptions.length fun _ body => Ghostless body :=
    (attained.ghostless serial).serve_ghostless
  have sound : (serveAlone flow (c, state) (.advance .forwardEuler current new)).1.Sound :=
    (attained.sound serial).serve
  rw [← start_eq] at unmoved ghostless sound
  rcases sound.consistent.exists_window (stays 0) with ⟨window, opened⟩
  have amid : start.1.Amid settings descriptions.length window :=
    ⟨ghostless, sound, stays 0, opened⟩
  have placed : start.1.Standing settings descriptions.length
      (PlacedFrom settings.quadratureOrder window start.1.structures fun _ => none) := by
    refine { unmoved with each := ?_ }
    intro part body found
    rcases unmoved.each part body found with ⟨step, present, same, weighed⟩
    exact ⟨body, found, rfl, rfl, weighed, step, present, same⟩
  rcases placed.run_placed amid stays with ⟨ended, amidNow⟩
  simp only [Option.or_none] at ended
  rw [← now_eq] at ended amidNow
  refine ⟨window, amidNow.window_eq, ended.length_eq, ended.each, ?_⟩
  rintro before between t₀ t₁ rfl succeeds ungiven t₂ t₃
  have later : StaysOpen flow (runAlone flow start before) (.advance .midpoint t₀ t₁ :: between) :=
    stays.right
  rcases placed.run_placed amid stays.left with ⟨placed', amid'⟩
  have inPlace : now.1.Standing settings descriptions.length fun _ body =>
      InPlace settings.quadratureOrder window body := by
    rw [now_eq, runAlone_append]
    exact (placed'.inPlace_of_midpoint amid' later.first succeeds).run_inPlace
      (amid'.serve later.first) later.tail ungiven
  have repeated : serveAlone flow now (.advance .midpoint t₂ t₃) = now ∨
      serveAlone flow now (.advance .midpoint t₂ t₃) =
        ({ now.1 with protocol := { now.1.protocol with phase := .positionAdvanced } },
          now.2) := by
    apply serveAlone_of_ends fun after => after = now ∨ after =
      ({ now.1 with protocol := { now.1.protocol with phase := .positionAdvanced } }, now.2)
    rw [Call.serve, ends_first]
    apply (inPlace.ends_midpoint_inPlace amidNow).imp
    · exact fun _ _ moved => Or.inr (congrArg (·, now.2) moved)
    · exact fun _ same => Or.inl (congrArg (·, now.2) same)
  by_cases advanced : now.1.protocol.phase = .positionAdvanced
  · rw [← advanced, or_self] at repeated
    exact Or.inl repeated
  · exact repeated.imp_right fun moved => ⟨advanced, moved⟩

/-- The two triangles in a step that waits for its prediction. -/
def waitingTriangles : Coordinator .triangle ℚ :=
  (runAlone counting (ofTwoTriangles, 0)
    [.setVelocity 0 ⟨⟨1, 2, 0⟩, ⟨0, 0, 0⟩⟩, .preprocess 0 1]).1

/-- The two triangles after their prediction. -/
def predictedTriangles : Coordinator .triangle ℚ × Nat :=
  serveAlone counting (waitingTriangles, 0) (.advance .forwardEuler 0 1)

/-- The degrees of freedom of a triangle that does not rotate. -/
def sliding (x y : ℚ) : Vector ℚ Shape.triangle.dim.rigidSize :=
  #v[x, y, 0]

/--
A constraint solve that updates the positions twice.  The closing, the update of the driven triangle
and the last update of the positions are refused.
-/
def iterations : List (Call .triangle ℚ) :=
  [.advance .midpoint 0 1, .updateVelocity 0 (sliding 3 4),
    .setForce ⟨[uniformForce 1, uniformForce 2]⟩ 1 1, .postprocess, .spread 1,
    .advance .midpoint 0 1, .updateVelocity 1 (sliding 5 6), .advance .midpoint 0 2]

/-- The two triangles after these iterations. -/
def iteratedTriangles : Coordinator .triangle ℚ × Nat :=
  runAlone counting predictedTriangles iterations

theorem last_midpoint_decides_iterations :
    (∃ first body, predictedTriangles.1.structures[0]? = some first ∧
        iteratedTriangles.1.structures[0]? = some body ∧
        Placed 0 (.between 0 1) first (some ⟨⟨2, 3, 0⟩, ⟨0, 0, 0⟩⟩) body) ∧
      serveAlone counting iteratedTriangles (.advance .midpoint 0 1) = iteratedTriangles := by
  have registered : (register ⟨"triangles", 0, 1 / 10⟩ [triangle, drivenTriangle]
      Seat.alone).alone = .ok ofTwoTriangles :=
    eq_ok_get _
  have attained : Attainable ⟨"triangles", 0, 1 / 10⟩ [triangle, drivenTriangle] .alone
      waitingTriangles :=
    (Attainable.registered registered).runAlone
  have predicts : Call.Succeeds (.advance .forwardEuler 0 1) counting (waitingTriangles, 0) := by
    decide +kernel
  have stays : StaysOpen counting predictedTriangles iterations := by
    decide +kernel
  rcases last_midpoint_decides rfl attained counting 0 predicts
      (show predictedTriangles = _ from rfl) stays (show iteratedTriangles = _ from rfl) with
    ⟨window, opened, length_eq, placed, repeated⟩
  have opened' : iteratedTriangles.1.protocol.window = some (.between 0 1) := by
    decide +kernel
  rw [opened, Option.some.injEq] at opened'
  subst opened'
  have moved : lastMovedWith counting 0 predictedTriangles iterations =
      some ⟨⟨2, 3, 0⟩, ⟨0, 0, 0⟩⟩ := by
    decide +kernel
  have inside : 0 < iteratedTriangles.1.structures.length := by
    rw [length_eq]
    decide
  have found := List.getElem?_eq_getElem inside
  rcases placed 0 _ found with ⟨first, was, body⟩
  rw [moved] at body
  refine ⟨⟨first, _, was, found, body⟩, ?_⟩
  -- Between the last update and the repeated one, an update of a velocity is refused.
  have refused : ¬ Call.Succeeds (.updateVelocity 1 (sliding 5 6)) counting
      (serveAlone counting (runAlone counting predictedTriangles (iterations.take 5))
        (.advance .midpoint 0 1)) := by
    decide +kernel
  have ungiven (part : Nat) : lastGiven counting part
      (serveAlone counting (runAlone counting predictedTriangles (iterations.take 5))
        (.advance .midpoint 0 1)) (iterations.drop 6) = none := by
    apply Option.or_eq_none_iff.mpr ⟨rfl, ?_⟩
    exact if_neg fun given => refused given.2
  rcases repeated (iterations.take 5) (iterations.drop 6) 0 1 rfl (by decide +kernel) ungiven 0 1
    with same | ⟨advanced, -⟩
  · exact same
  · exact absurd (by decide +kernel) advanced

end

end Coordinator

end ImmersedBody
