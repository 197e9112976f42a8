import ImmersedBody.Proofs.Rational
import ImmersedBody.Proofs.Coordinator.Rejections

/-!
# Velocities of structures that are rejected

Setting the velocity of a structure writes the constrained velocity of the half time
before the layout of the caller's composite is looked at.  `rejected_velocities` says
exactly when a rejected call leaves everything as it was: the composite and the
protocol are never touched, but the constrained velocity is, unless the part of the
composite can take what the velocity expands to.

What was written is committed when the step is closed.
-/

namespace ImmersedBody

open ImmersedBody.Action NodalField

variable {α : Type} {shape : Shape}

/-! ## One structure -/

namespace RigidStructure

variable {body : RigidStructure shape α} {step : StepFields α} {velocity : NodalField α}

/-- The structure with another constrained velocity at the half time, if it has fields of a step. -/
def withConstrained (body : RigidStructure shape α) (velocity : NodalField α) :
    RigidStructure shape α :=
  { body with step := body.step.map fun step => { step with constrainedVelocity := velocity } }

theorem withConstrained_of_step (opened : body.step = some step) :
    body.withConstrained velocity =
      { body with step := some { step with constrainedVelocity := velocity } } := by
  rw [withConstrained, opened, Option.map_some]

/-- Only the constrained velocity that is there leaves a structure as it is. -/
theorem withConstrained_eq_self_iff (opened : body.step = some step) :
    body.withConstrained velocity = body ↔ velocity = step.constrainedVelocity := by
  rw [withConstrained_of_step opened]
  constructor
  · intro same
    have steps := congrArg RigidStructure.step same
    rw [opened, Option.some.injEq] at steps
    exact congrArg StepFields.constrainedVelocity steps
  · rintro rfl
    cases body
    cases opened
    rfl

variable [Scalar α]

/--
The constrained velocity that the evaluation of a rigid velocity leaves behind, and whether the
evaluation has come to its end.
-/
def expansion (body : RigidStructure shape α) (step : StepFields α) (velocity : RigidVelocity α)
    (time : α) : Except (Stop α) Unit × NodalField α :=
  match body.nodalVelocity velocity step.halfPositions body.halfMass.center time
      step.constrainedVelocity with
  | .ok () expanded => (.ok (), { expanded with synchronized := true })
  | .error stop expanded => (.error stop, expanded)

/-- The velocity of a body that moves rigidly expands to a field that is laid out like the body. -/
theorem expansion_of_rigid (sound : body.Sound) (opened : body.step = some step)
    (rigid : body.nodalVelocity = .rigid shape.dim)
    (fits : step.constrainedVelocity.layout = body.layout) (velocity : RigidVelocity α) (time : α) :
    ∃ expanded, body.expansion step velocity time = (.ok (), expanded) ∧
      expanded.layout = body.layout := by
  have spans : body.layout.Spans shape.dim body.mesh.vertices.size := ⟨sound.block, sound.owned⟩
  rcases spans.exists_writeMapped (sound.step step opened).halfPositions fits
    (fun x => velocity.atOffset (x - body.halfMass.center)) with ⟨expanded, written, same, -⟩
  have evaluated : body.nodalVelocity velocity step.halfPositions body.halfMass.center time
      step.constrainedVelocity = .ok () expanded := by
    rw [rigid]
    exact written
  exact ⟨{ expanded with synchronized := true }, by rw [expansion, evaluated], same⟩

end RigidStructure

namespace Coordinator

open RigidStructure

/-! ## What a call does -/

/-- The checks of setting the velocity of a structure are passed, and it has fields of the step. -/
structure Admits (c : Coordinator shape α) (composite : CompositeField α) (part : Nat)
    (window : StepWindow α) (body : RigidStructure shape α) (step : StepFields α) : Prop where
  counted : composite.parts.length = c.count
  accepted : c.protocol.check .setVelocity = .ok window
  found : c.structures[part]? = some body
  opened : body.step = some step

/-- The coordinator with another constrained velocity of a structure at the half time. -/
def withConstrained (c : Coordinator shape α) (part : Nat) (velocity : NodalField α) :
    Coordinator shape α :=
  { c with structures := c.structures.modify part (·.withConstrained velocity) }

variable {c : Coordinator shape α} {composite : CompositeField α} {part : Nat}
  {window : StepWindow α} {body : RigidStructure shape α} {step : StepFields α}

namespace Admits

/-- The checks find one structure. -/
theorem unique (admits : c.Admits composite part window body step) {window' : StepWindow α}
    {body' : RigidStructure shape α} {step' : StepFields α}
    (admits' : c.Admits composite part window' body' step') :
    window' = window ∧ body' = body ∧ step' = step := by
  have sameWindow := admits'.accepted.symm.trans admits.accepted
  have sameBody := admits'.found.symm.trans admits.found
  cases sameWindow
  cases sameBody
  have sameStep := admits'.opened.symm.trans admits.opened
  cases sameStep
  exact ⟨rfl, rfl, rfl⟩

theorem withConstrained_eq (admits : c.Admits composite part window body step)
    (velocity : NodalField α) :
    { c with structures := c.structures.set part (body.withConstrained velocity) } =
      c.withConstrained part velocity := by
  rw [Coordinator.withConstrained, List.modify_eq_set_getElem?, admits.found]
  rfl

/-- Only the constrained velocity that is there leaves the coordinator as it is. -/
theorem withConstrained_eq_self_iff (admits : c.Admits composite part window body step)
    {velocity : NodalField α} :
    c.withConstrained part velocity = c ↔ velocity = step.constrainedVelocity := by
  rw [← RigidStructure.withConstrained_eq_self_iff admits.opened, ← admits.withConstrained_eq]
  rcases List.getElem?_eq_some_iff.mp admits.found with ⟨inside, rfl⟩
  constructor
  · intro same
    have structures := congrArg (·.structures[part]?) same
    simpa [inside] using structures
  · intro same
    rw [same, List.set_getElem_self]

end Admits

variable [Scalar α] {seat : Seat}

/-- The evaluation of a rigid velocity replaces the constrained velocity, also if it stops. -/
theorem ends_expandVelocity_exact (serial : seat.size = 1) (opened : body.step = some step)
    {objectName : String} {velocity : RigidVelocity α} {time : α} :
    (expandVelocity seat objectName part velocity time).Ends body
      (fun expanded after => body.expansion step velocity time = (.ok (), expanded) ∧
        after = body.withConstrained expanded)
      fun after => ∃ stop left, body.expansion step velocity time = (.error stop, left) ∧
        after = body.withConstrained left := by
  rw [expandVelocity]
  simp only [ends_bind, ends_get, ends_stepFields, ends_part, ends_attempt, opened]
  cases evaluated : body.nodalVelocity velocity step.halfPositions body.halfMass.center time
      step.constrainedVelocity with
  | error stop left =>
      refine ⟨stop, left, ?_, (withConstrained_of_step opened).symm⟩
      rw [expansion, evaluated]
  | ok value expanded =>
      simp only [ends_collective, alone_close serial, ends_set, ends_pure]
      refine ⟨?_, (withConstrained_of_step opened).symm⟩
      rw [expansion, evaluated]

/-- The velocity of a structure expands to a field that the part of a composite can take. -/
def Suits (composite : CompositeField α) (part : Nat)
    (expansion : Except (Stop α) Unit × NodalField α) : Prop :=
  expansion.1 = .ok () ∧
    ∃ target, composite.parts[part]? = some target ∧ target.compatible expansion.2 = true

variable {dofs : Vector α shape.dim.rigidSize}

/-- The evaluation, if the checks before it are passed, as far as the coordinator goes. -/
theorem ends_evaluate (serial : c.seat.size = 1) (composite : CompositeField α) (part : Nat)
    (dofs : Vector α shape.dim.rigidSize) :
    (do
      let window ← checking .setBodyVelocity fun c => do
        c.checkPart part
        c.checkParts composite
        c.protocol.check .setVelocity
      onStructure part (expandVelocity c.seat c.name part (.ofDofs shape.dim dofs) window.new) :
        Work shape α (Option (NodalField α))).Ends c
      (fun expanded after => ∃ window body step left, c.Admits composite part window body step ∧
        body.expansion step (.ofDofs shape.dim dofs) window.new = (.ok (), left) ∧
          expanded = some left ∧ after = c.withConstrained part left)
      fun after => (after = c ∧ ∀ window body step, ¬ c.Admits composite part window body step) ∨
        ∃ window body step stop left, c.Admits composite part window body step ∧
          body.expansion step (.ofDofs shape.dim dofs) window.new = (.error stop, left) ∧
            after = c.withConstrained part left := by
  rw [ends_bind, ends_checking]
  cases checked : (do
      c.checkPart part
      c.checkParts composite
      c.protocol.check .setVelocity) with
  | error violation =>
      refine Or.inl ⟨rfl, fun window body step admits => ?_⟩
      have inside : checkPart part c = .ok () :=
        if_pos (List.getElem?_eq_some_iff.mp admits.found).1
      rw [inside, checkParts, if_pos admits.counted] at checked
      cases checked.symm.trans admits.accepted
  | ok window =>
      rcases bind_eq_ok_iff.mp checked with ⟨_, inside, later⟩
      rcases bind_eq_ok_iff.mp later with ⟨_, counted, accepted⟩
      have inside : part < c.structures.length := checkPart_eq_ok_iff.mp inside
      have found := List.getElem?_eq_getElem inside
      simp only [ends_onStructure, found]
      cases opened : c.structures[part].step with
      | none =>
          simp only [expandVelocity, ends_bind, ends_get, ends_stepFields, opened]
          refine Or.inl ⟨by rw [List.set_getElem_self], ?_⟩
          intro window' body step admits
          have same := admits.found.symm.trans found
          cases same
          cases opened.symm.trans admits.opened
      | some step =>
          have admits : c.Admits composite part window c.structures[part] step :=
            ⟨checkParts_eq_ok_iff.mp counted, accepted, found, opened⟩
          apply (ends_expandVelocity_exact serial opened).imp
          · rintro expanded _ ⟨evaluated, rfl⟩
            exact ⟨window, _, step, expanded, admits, evaluated, rfl,
              admits.withConstrained_eq expanded⟩
          · rintro _ ⟨stop, left, evaluated, rfl⟩
            exact Or.inr ⟨window, _, step, stop, left, admits, evaluated,
              admits.withConstrained_eq left⟩

/--
A call succeeds if the checks are passed and the part of the composite can take the expanded
velocity.  If it is rejected before the evaluation, nothing changes; if it is rejected later, what
the evaluation has left stays.
-/
theorem ends_setBodyVelocity_exact (serial : c.seat.size = 1) :
    (setBodyVelocity part dofs).Ends (c, composite)
      (fun _ after => ∃ window body step outcome, c.Admits composite part window body step ∧
        Suits composite part (body.expansion step (.ofDofs shape.dim dofs) window.new) ∧
          c.protocol.record .setVelocity = .ok outcome ∧
            after = ({ c.withConstrained part
                (body.expansion step (.ofDofs shape.dim dofs) window.new).2 with
                  protocol := outcome.protocol },
              composite.setPart part
                (body.expansion step (.ofDofs shape.dim dofs) window.new).2))
      fun after =>
        (after = (c, composite) ∧
          ∀ window body step, ¬ c.Admits composite part window body step) ∨
        ∃ window body step, c.Admits composite part window body step ∧
          ¬ Suits composite part (body.expansion step (.ofDofs shape.dim dofs) window.new) ∧
            after = (c.withConstrained part
              (body.expansion step (.ofDofs shape.dim dofs) window.new).2, composite) := by
  have evaluates := ends_evaluate serial composite part dofs
  rw [setBodyVelocity, ends_of, Task.alone_bind]
  rw [Ends, Action.alone] at evaluates
  generalize (on _ c).alone = result at *
  rcases result with ⟨stop | expanded, between⟩
  · rcases evaluates with ⟨rfl, notAdmitted⟩ |
      ⟨window, body, step, stop', left, admits, evaluated, rfl⟩
    · exact Or.inl ⟨rfl, notAdmitted⟩
    · refine Or.inr ⟨window, body, step, admits, ?_, ?_⟩
      · rw [evaluated]
        rintro ⟨finished, -⟩
        cases finished
      · rw [evaluated]
  · rcases evaluates with ⟨window, body, step, left, admits, evaluated, rfl, rfl⟩
    have inside : part < composite.parts.length := by
      rw [admits.counted]
      exact (List.getElem?_eq_some_iff.mp admits.found).1
    have target := List.getElem?_eq_getElem inside
    by_cases compatible : composite.parts[part].compatible left = true
    · have copied : composite.parts[part].copyFrom left = .ok left :=
        copyFrom_of_compatible compatible
      rcases StepProtocol.exists_record_of_check admits.accepted with ⟨outcome, recorded⟩
      have records : (committing fun p => p.record .setVelocity :
          Work shape α (StepWindow α)).Ends (c.withConstrained part left)
            (fun _ after => after =
              { c.withConstrained part left with protocol := outcome.protocol })
            fun _ => False := by
        have recorded' : (c.withConstrained part left).protocol.record .setVelocity = .ok outcome :=
          recorded
        rw [ends_committing, recorded']
      simp only [target, copied, Task.alone_bind]
      rw [Ends, Action.alone] at records
      generalize (on _ (c.withConstrained part left)).alone = result at *
      rcases result with ⟨stop | _, after⟩
      · exact records.elim
      · refine ⟨window, body, step, outcome, admits, ?_, recorded, ?_⟩
        · rw [evaluated]
          exact ⟨rfl, _, target, compatible⟩
        · rw [evaluated]
          exact congrArg (·, composite.setPart part left) records
    · have refused : composite.parts[part].copyFrom left = .error .incompatibleLayouts :=
        copyFrom_of_incompatible compatible
      simp only [target, refused]
      refine Or.inr ⟨window, body, step, admits, ?_, ?_⟩
      · rw [evaluated]
        rintro ⟨-, other, same, suits⟩
        rw [target, Option.some.injEq] at same
        exact compatible (same ▸ suits)
      · rw [evaluated]

/-! ## Rejected calls -/

/-- A call is accepted exactly if it is admitted and the part of the composite suits. -/
theorem setBodyVelocity_isOk_iff (serial : c.seat.size = 1) :
    ((setBodyVelocity part dofs).alone (c, composite)).1.isOk = true ↔
      ∃ window body step, c.Admits composite part window body step ∧
        Suits composite part (body.expansion step (.ofDofs shape.dim dofs) window.new) := by
  have ends : (setBodyVelocity part dofs).Ends (c, composite) _ _ :=
    ends_setBodyVelocity_exact serial
  rw [Ends] at ends
  generalize (setBodyVelocity part dofs).alone (c, composite) = result at *
  rcases result with ⟨stop | _, after⟩
  · refine ⟨fun ok => Bool.noConfusion ok, ?_⟩
    rintro ⟨window, body, step, admits, suits⟩
    rcases ends with ⟨-, notAdmitted⟩ | ⟨window', body', step', admits', unsuited, -⟩
    · exact absurd admits (notAdmitted window body step)
    · rcases admits.unique admits' with ⟨rfl, rfl, rfl⟩
      exact absurd suits unsuited
  · rcases ends with ⟨window, body, step, outcome, admits, suits, -⟩
    exact ⟨fun _ => ⟨window, body, step, admits, suits⟩, fun _ => rfl⟩

/-- A rejected call leaves no trace exactly if what is evaluated suits or was there already. -/
theorem setBodyVelocity_untouched_iff (serial : c.seat.size = 1) :
    (∀ stop after, (setBodyVelocity part dofs).alone (c, composite) = (.error stop, after) →
        after = (c, composite)) ↔
      ∀ window body step, c.Admits composite part window body step →
        Suits composite part (body.expansion step (.ofDofs shape.dim dofs) window.new) ∨
          (body.expansion step (.ofDofs shape.dim dofs) window.new).2 =
            step.constrainedVelocity := by
  have ends : (setBodyVelocity part dofs).Ends (c, composite) _ _ :=
    ends_setBodyVelocity_exact serial
  rw [Ends] at ends
  generalize (setBodyVelocity part dofs).alone (c, composite) = result at *
  rcases result with ⟨stop | _, after⟩
  · rcases ends with ⟨rfl, notAdmitted⟩ | ⟨window, body, step, admits, unsuited, rfl⟩
    · constructor
      · exact fun _ window body step admits => absurd admits (notAdmitted window body step)
      · rintro _ _ _ ⟨⟩
        rfl
    · constructor
      · intro untouched window' body' step' admits'
        rcases admits.unique admits' with ⟨rfl, rfl, rfl⟩
        have same := congrArg Prod.fst (untouched stop _ rfl)
        exact Or.inr (admits.withConstrained_eq_self_iff.mp same)
      · rintro suits _ _ ⟨⟩
        have same := (suits window body step admits).resolve_left unsuited
        rw [admits.withConstrained_eq_self_iff.mpr same]
  · rcases ends with ⟨window, body, step, outcome, admits, suits, -⟩
    constructor
    · intro _ window' body' step' admits'
      rcases admits.unique admits' with ⟨rfl, rfl, rfl⟩
      exact Or.inl suits
    · rintro _ _ _ ⟨⟩

section

variable {settings : Settings α} {descriptions : List (StructureDescription shape α)} {seat : Seat}

/--
Whatever has been called before: a call that sets the velocity of a structure is accepted exactly if
its checks are passed and the part of the composite suits what the velocity expands to.  A rejected
call changes neither the composite nor the protocol, nor anything but the constrained velocity of
the structure at the half time.  It changes nothing at all exactly if it was rejected by its checks,
or if the evaluation has left the velocity that was there.  For a structure that moves rigidly every
part suits that is laid out like the structure.
-/
theorem rejected_velocities (serial : seat.size = 1)
    (attained : Attainable settings descriptions seat c) (part : Nat)
    (dofs : Vector α shape.dim.rigidSize) (composite : CompositeField α) :
    (((setBodyVelocity part dofs).alone (c, composite)).1.isOk = true ↔
      ∃ window body step, c.Admits composite part window body step ∧
        Suits composite part (body.expansion step (.ofDofs shape.dim dofs) window.new)) ∧
    (∀ stop after, (setBodyVelocity part dofs).alone (c, composite) = (.error stop, after) →
      after.2 = composite ∧
        (after.1 = c ∨ ∃ velocity, after.1 = c.withConstrained part velocity)) ∧
    ((∀ stop after, (setBodyVelocity part dofs).alone (c, composite) = (.error stop, after) →
        after = (c, composite)) ↔
      ∀ window body step, c.Admits composite part window body step →
        Suits composite part (body.expansion step (.ofDofs shape.dim dofs) window.new) ∨
          (body.expansion step (.ofDofs shape.dim dofs) window.new).2 =
            step.constrainedVelocity) ∧
    ∀ window body step target, c.Admits composite part window body step →
      body.nodalVelocity = .rigid shape.dim → step.constrainedVelocity.layout = body.layout →
        composite.parts[part]? = some target → target.layout = body.layout →
          Suits composite part (body.expansion step (.ofDofs shape.dim dofs) window.new) := by
  have sound := attained.sound serial
  refine ⟨setBodyVelocity_isOk_iff sound.serial, ?_, setBodyVelocity_untouched_iff sound.serial, ?_⟩
  · intro stop after stops
    have ends : (setBodyVelocity part dofs).Ends (c, composite) _ _ :=
      ends_setBodyVelocity_exact sound.serial
    rw [Ends, stops] at ends
    rcases ends with ⟨rfl, -⟩ | ⟨window, body, step, -, -, rfl⟩
    · exact ⟨rfl, Or.inl rfl⟩
    · exact ⟨rfl, Or.inr ⟨_, rfl⟩⟩
  · intro window body step target admits rigid fits found same
    have sound' := sound.sound body (List.mem_of_getElem? admits.found)
    rcases expansion_of_rigid sound' admits.opened rigid fits (.ofDofs shape.dim dofs) window.new
      with ⟨expanded, evaluated, layout_eq⟩
    rw [evaluated]
    refine ⟨rfl, target, found, ?_⟩
    rw [compatible, same, layout_eq, beq_self_eq_true]

end

/-- The triangle after a prediction. -/
def predictedTriangle : Coordinator .triangle ℚ × Nat :=
  Coordinator.runAlone counting (ofTriangle, 0) [.preprocess 0 1, .advance .forwardEuler 0 1]

/-- A part that suits is accepted; a number that no structure has is rejected without a trace. -/
theorem triangle_sets_velocity :
    (∃ window body step, predictedTriangle.1.Admits ⟨[uniformForce 0]⟩ 0 window body step ∧
      Suits ⟨[uniformForce 0]⟩ 0 (body.expansion step (.ofDofs .two #v[1, 2, 3]) window.new)) ∧
    ∀ stop after, (setBodyVelocity 1 #v[1, 2, 3]).alone (predictedTriangle.1, ⟨[shortField 0]⟩) =
      (.error stop, after) → after = (predictedTriangle.1, ⟨[shortField 0]⟩) := by
  have registered : (register ⟨"triangle", 0, 1 / 10⟩ [triangle] Seat.alone).alone =
      .ok ofTriangle :=
    eq_ok_get _
  have attained : Attainable ⟨"triangle", 0, 1 / 10⟩ [triangle] Seat.alone predictedTriangle.1 :=
    (Attainable.registered registered).runAlone
  constructor
  · exact (rejected_velocities rfl attained 0 #v[1, 2, 3] ⟨[uniformForce 0]⟩).1.mp
      (by decide +kernel)
  · apply (rejected_velocities rfl attained 1 #v[1, 2, 3] ⟨[shortField 0]⟩).2.2.1.mpr
    intro window body step admits
    have missing : predictedTriangle.1.structures[1]? = none := by
      rw [List.getElem?_eq_none_iff]
      decide +kernel
    cases admits.found.symm.trans missing

/-- A composite with a part of another length is rejected, but the velocity is committed. -/
theorem rejected_velocity_committed :
    let call : Call .triangle ℚ := .setBodyVelocity 0 #v[1, 2, 3] ⟨[shortField 0]⟩
    let half (c : Coordinator .triangle ℚ) := c.structures.map fun body =>
      body.step.map (·.constrainedVelocity)
    let committed (calls : List (Call .triangle ℚ)) :=
      (Coordinator.runAlone counting predictedTriangle calls).1.structures.map
        (·.constrainedVelocity)
    ¬ call.Succeeds counting predictedTriangle ∧
      half (serveAlone counting predictedTriangle call).1 ≠ half predictedTriangle.1 ∧
      committed [.postprocess] = [uniformForce 0] ∧
      committed [call, .postprocess] ≠ [uniformForce 0] := by
  decide +kernel

end Coordinator

end ImmersedBody
