import ImmersedBody.Proofs.Rational
import ImmersedBody.Proofs.Coordinator.Maintenance
import ImmersedBody.Proofs.Field.Edits

/-!
# Reachable coordinators

`Coordinator.Reachable` collects the coordinators that registration on the only rank and
calls with arbitrary operands lead to.  Each call may use an analytic flow of its own, and
may stop.  Callers change composite forces that are handed out by edits only, and no
opening of a step fails for a structure without volume.

Such a coordinator is whole: what belongs to a step is present exactly in a step,
everything is laid out like the structures, and all positions are synchronized.  Hence
every call of it either succeeds or stops for a reason that callers have to reckon with.
-/

namespace ImmersedBody

open ImmersedBody.Action RigidStructure

variable {α σ : Type} {shape : Shape}

namespace RigidStructure

/-- The nodal fields of a structure, with those of the step. -/
def fields (body : RigidStructure shape α) : List (NodalField α) :=
  [body.positions, body.constraintForce, body.constrainedVelocity, body.lagrangianVelocity] ++
    body.step.toList.flatMap fun step =>
      [step.halfPositions, step.newPositions, step.halfForce, step.halfVelocity,
        step.newVelocity, step.constrainedVelocity]

/-- The positions of a structure, with those of the step. -/
def placements (body : RigidStructure shape α) : List (NodalField α) :=
  body.positions :: body.step.toList.flatMap fun step => [step.halfPositions, step.newPositions]

namespace Intact

variable [Scalar α] {inStep : Bool} {layout : FieldLayout} {body : RigidStructure shape α}

theorem layout_of_mem_fields (intact : body.Intact inStep layout) {field : NodalField α}
    (member : field ∈ body.fields) : field.layout = body.layout := by
  rw [intact.layout_eq]
  rcases List.mem_append.mp member with own | ofStep
  · simp only [List.mem_cons, List.not_mem_nil, or_false] at own
    rcases own with rfl | rfl | rfl | rfl
    · exact intact.positions
    · exact intact.constraintForce
    · exact intact.constrainedVelocity
    · exact intact.lagrangianVelocity
  · rcases List.mem_flatMap.mp ofStep with ⟨step, found, listed⟩
    have fits := intact.step step (Option.mem_toList.mp found)
    simp only [List.mem_cons, List.not_mem_nil, or_false] at listed
    rcases listed with rfl | rfl | rfl | rfl | rfl | rfl
    · exact fits.halfPositions
    · exact fits.newPositions
    · exact fits.halfForce
    · exact fits.halfVelocity
    · exact fits.newVelocity
    · exact fits.constrainedVelocity

theorem synchronized_of_mem_placements (intact : body.Intact inStep layout)
    {positions : NodalField α} (member : positions ∈ body.placements) :
    positions.synchronized = true := by
  rcases List.mem_cons.mp member with rfl | ofStep
  · exact intact.synchronized
  · rcases List.mem_flatMap.mp ofStep with ⟨step, found, listed⟩
    have fits := intact.step step (Option.mem_toList.mp found)
    simp only [List.mem_cons, List.not_mem_nil, or_false] at listed
    rcases listed with rfl | rfl
    · exact fits.halfSynchronized
    · exact fits.newSynchronized

end Intact

end RigidStructure

namespace Coordinator

/-! ## Whole coordinators -/

/-- A coordinator in which nothing is missing or left over, and everything fits together. -/
structure Whole (c : Coordinator shape α) : Prop where
  window : c.protocol.window.isSome = c.protocol.phase.inStep
  steps : ∀ body ∈ c.structures, body.step.isSome = c.protocol.phase.inStep
  currentForces : c.currentForces.isSome = c.protocol.phase.inStep
  newForces : c.newForces.isSome = c.protocol.phase.inStep
  fields : ∀ body ∈ c.structures, ∀ field ∈ body.fields, field.layout = body.layout
  forces : ∀ level forces, c.forcesAt level = some forces →
    forces.parts.map (·.layout) = c.structures.map (·.layout)
  synchronized : ∀ body ∈ c.structures, ∀ positions ∈ body.placements,
    positions.synchronized = true

variable [Scalar α]

namespace Intact

variable {inStep : Bool} {layouts : List FieldLayout} {c : Coordinator shape α}

theorem exists_of_mem (intact : c.Intact inStep layouts) {body : RigidStructure shape α}
    (member : body ∈ c.structures) : ∃ layout, body.Intact inStep layout := by
  rcases List.mem_iff_getElem?.mp member with ⟨part, found⟩
  rcases intact.exists_layout found with ⟨layout, -, fits⟩
  exact ⟨layout, fits⟩

omit [Scalar α] in
theorem isSome_of_allocated {forces : Option (CompositeField α)}
    (allocated : Allocated inStep layouts forces) : forces.isSome = inStep := by
  rw [Allocated] at allocated
  rw [← Option.isSome_map, allocated]
  cases inStep <;> rfl

theorem whole (intact : c.Intact inStep layouts) : c.Whole where
  window := intact.window.trans intact.phase.symm
  steps := by
    intro body member
    rcases intact.exists_of_mem member with ⟨layout, fits⟩
    exact fits.step_isSome.trans intact.phase.symm
  currentForces := (isSome_of_allocated intact.currentForces).trans intact.phase.symm
  newForces := (isSome_of_allocated intact.newForces).trans intact.phase.symm
  fields := by
    intro body member field listed
    rcases intact.exists_of_mem member with ⟨layout, fits⟩
    exact fits.layout_of_mem_fields listed
  forces := by
    intro level forces found
    have same : c.structures.map (·.layout) = layouts := by
      rw [← List.forall₂_eq_eq_eq, List.forall₂_map_left_iff]
      exact (intact.structures.imp fun _ _ fits => fits.layout_eq).flip
    have laidOut {here : Option (CompositeField α)} (allocated : Allocated inStep layouts here)
        (here_eq : here = some forces) : forces.parts.map (·.layout) = layouts := by
      rw [Allocated, here_eq, Option.map_some] at allocated
      split at allocated
      · exact Option.some.inj allocated
      · cases allocated
    rw [same]
    cases level with
    | current =>
        exact laidOut intact.currentForces found
    | half =>
        cases found
    | new =>
        exact laidOut intact.newForces found
  synchronized := by
    intro body member positions listed
    rcases intact.exists_of_mem member with ⟨layout, fits⟩
    exact fits.synchronized_of_mem_placements listed

end Intact

/-! ## Operands -/

/-- The operands are ones that a coordinator with so many structures has something for. -/
def Call.Fits (count : Nat) : Call shape α → Prop
  | readVelocities composite _ _ | setForce composite _ _ => composite.parts.length = count
  | computeForce part _ | updateVelocity part _ | setVelocity part _ => part < count
  | setBodyVelocity part _ composite => part < count ∧ composite.parts.length = count
  | restore record => record.velocities.length = count
  | advance rule _ _ => rule ≠ .trapezoidal
  | _ => True

omit [Scalar α] in
theorem checkPart_eq_ok_iff {c : Coordinator shape α} {part : Nat} {checked : Unit} :
    checkPart part c = .ok checked ↔ part < c.count := by
  rw [checkPart]
  split <;> simp [*]

omit [Scalar α] in
theorem checkParts_eq_ok_iff {c : Coordinator shape α} {composite : CompositeField α}
    {checked : Unit} :
    checkParts composite c = .ok checked ↔ composite.parts.length = c.count := by
  rw [checkParts]
  split <;> simp [*]

theorem yields_setBodyVelocity_of_not_fits {part : Nat} {dofs : Vector α shape.dim.rigidSize}
    {composite : CompositeField α} {c : Coordinator shape α}
    (unfit : ¬ (part < c.count ∧ composite.parts.length = c.count)) :
    (setBodyVelocity part dofs).Yields (c, composite) (fun _ _ => False)
      fun _ after => after = (c, composite) := by
  have expands : (do
      let window ← checking .setBodyVelocity fun c => do
        c.checkPart part
        c.checkParts composite
        c.protocol.check .setVelocity
      onStructure part (expandVelocity c.seat c.name part (.ofDofs shape.dim dofs) window.new) :
        Work shape α (Option (NodalField α))).Yields c (fun _ _ => False)
          fun _ after => after = c := by
    rw [yields_bind, yields_checking]
    cases checked : (do
        c.checkPart part
        c.checkParts composite
        c.protocol.check .setVelocity) with
    | error violation =>
        rfl
    | ok window =>
        rcases bind_eq_ok_iff.mp checked with ⟨_, numbered, later⟩
        rcases bind_eq_ok_iff.mp later with ⟨_, counted, -⟩
        exact absurd ⟨checkPart_eq_ok_iff.mp numbered, checkParts_eq_ok_iff.mp counted⟩ unfit
  rw [setBodyVelocity, yields_of, Task.alone_bind]
  rw [Yields, Action.alone] at expands
  generalize (on _ c).alone = result at *
  rcases result with ⟨stop | expanded, between⟩
  · exact congrArg (·, composite) expands
  · exact expands.elim

/-- A call with operands that do not fit stops before anything changes. -/
theorem exists_stop_of_not_fits {call : Call shape α} {c : Coordinator shape α}
    (unfit : ¬ call.Fits c.count) (flow : FlowTransfer α σ) (state : σ) :
    ∃ stop, (call.serve flow).alone (c, state) = (.error stop, c, state) := by
  have refused : (call.serve flow).Yields (c, state) (fun _ _ => False)
      fun _ after => after = (c, state) := by
    cases call with
    | readVelocities composite time factor =>
        have mismatch : c.checkParts composite = .error _ := if_neg unfit
        simp only [Call.serve, yields_of, readVelocities, mismatch]
        cases c.protocol.queryVelocity time <;> rfl
    | setForce composite time factor =>
        have mismatch : c.checkParts composite = .error _ := if_neg unfit
        rw [Call.serve, yields_first, setForce]
        simp only [yields_bind, yields_get, yields_checking, mismatch]
        trivial
    | computeForce part force =>
        have outside : c.checkPart part = .error _ := if_neg unfit
        rw [Call.serve, yields_first, computeForce]
        simp only [yields_bind, yields_get, yields_checking, outside]
        trivial
    | updateVelocity part dofs =>
        have outside : c.checkPart part = .error _ := if_neg unfit
        rw [Call.serve, yields_first, updateVelocity]
        simp only [yields_bind, yields_checking, outside]
        trivial
    | setVelocity part velocity =>
        have outside : c.checkPart part = .error _ := if_neg unfit
        rw [Call.serve, yields_first, setVelocity]
        simp only [yields_bind, yields_checking, outside]
    | setBodyVelocity part dofs composite =>
        rw [yields_serve_setBodyVelocity]
        apply (yields_setBodyVelocity_of_not_fits unfit).imp
        · exact fun _ _ => False.elim
        · exact fun _ after same => congrArg (fun after => (after.1, state)) same
    | restore record =>
        rw [Call.serve, yields_first, restore, yields_bind, yields_get]
        split
        · rfl
        · cases checked : record.checkCompatible c.name c.count with
          | error e =>
              rfl
          | ok _ =>
              exact absurd (length_of_checkCompatible checked) unfit
    | advance rule current new =>
        rw [Call.serve, yields_first, advance]
        simp only [yields_bind, yields_get, yields_checking]
        cases checked : c.checkTimes rule current new with
        | error violation =>
            trivial
        | ok _ =>
            cases not_not.mp unfit
            rcases bind_eq_ok_iff.mp checked with ⟨window, accepted, -⟩
            rcases StepProtocol.check_eq_ok_iff.mp accepted with ⟨next, transition, -⟩
            exact absurd transition Phase.after_trapezoidal_ne_ok
    | _ =>
        exact absurd trivial unfit
  rw [Yields] at refused
  generalize (call.serve flow).alone (c, state) = result at *
  rcases result with ⟨stop | _, after⟩
  · exact ⟨stop, congrArg _ refused⟩
  · exact refused.elim

/-! ## Reachable coordinators -/

/-- What a caller makes of a composite field by edits, which may depend on what is found in it. -/
def IsEditing (change : CompositeField α → CompositeField α) : Prop :=
  ∀ composite, ∃ edits : List (CompositeEdit α),
    change composite = edits.foldl CompositeField.edit composite

theorem IsEditing.keepsLayouts {change : CompositeField α → CompositeField α}
    (editing : IsEditing change) : KeepsLayouts change := by
  intro composite
  rcases editing composite with ⟨edits, change_eq⟩
  rw [change_eq]
  clear change_eq
  induction edits generalizing composite with
  | nil =>
      rfl
  | cons edit edits ih =>
      exact (ih (composite.edit edit)).trans (composite.layouts_edit edit)

/-- The call stops because the cells of a structure have no volume. -/
def Call.StopsWeightless (call : Call shape α) (flow : FlowTransfer α σ)
    (state : Coordinator shape α × σ) : Prop :=
  ∃ stop after, (call.serve flow).alone state = (.error stop, after) ∧ stop.IsWeightless

theorem Call.Succeeds.not_stopsWeightless {call : Call shape α} {flow : FlowTransfer α σ}
    {state : Coordinator shape α × σ} (succeeds : call.Succeeds flow state) :
    ¬ call.StopsWeightless flow state := by
  rintro ⟨stop, after, stops, -⟩
  rw [Call.Succeeds, stops] at succeeds
  cases succeeds

/--
The coordinators that registration and calls lead to, whether the calls succeed or stop.  Composite
forces are only edited, and no step is opened with a structure without volume.
-/
inductive Reachable (settings : Settings α) (descriptions : List (StructureDescription shape α))
    (seat : Seat) : Coordinator shape α → Prop where
  | registered {c : Coordinator shape α}
      (created : (register settings descriptions seat).alone = .ok c) :
      Reachable settings descriptions seat c
  | called {c : Coordinator shape α} (earlier : Reachable settings descriptions seat c)
      (call : Call shape α) (field : Vec3 α → α → Vec3 α) (tally : SpreadTally α)
      (edits : ∀ time change, call = .changeForces time change → IsEditing change)
      (weighed : ∀ current new, call = .preprocess current new →
        ¬ call.StopsWeightless (AnalyticFlow.transfer shape.dim field) (c, tally)) :
      Reachable settings descriptions seat
        (serveAlone (AnalyticFlow.transfer shape.dim field) (c, tally) call).1

/-- What can be relied on in calls of a coordinator with a flow. -/
structure Safe (flow : FlowTransfer α σ) (c : Coordinator shape α) (state : σ) : Prop where
  /-- Nothing is missing in the inside of the library. -/
  foreseen : ∀ (call : Call shape α) stop after,
    (call.serve flow).alone (c, state) = (.error stop, after) → stop.IsForeseen
  /-- A step is closed as a whole or not at all. -/
  closing : ∀ stop after,
    (Call.serve flow .postprocess).alone (c, state) = (.error stop, after) → after = (c, state)
  fitting : ∀ call : Call shape α, ¬ call.Fits c.count →
    ∃ stop, (call.serve flow).alone (c, state) = (.error stop, c, state)

/-- A call keeps a coordinator intact, in a step or outside of it. -/
theorem Intact.yields_serve {inStep : Bool} {layouts : List FieldLayout}
    {c : Coordinator shape α} (intact : c.Intact inStep layouts) (call : Call shape α)
    (field : Vec3 α → α → Vec3 α) (tally : SpreadTally α) :
    (call.serve (AnalyticFlow.transfer shape.dim field)).Yields (c, tally)
      (fun _ after => (∀ time change, call = .changeForces time change → KeepsLayouts change) →
        ∃ inStep, after.1.Intact inStep layouts)
      fun stop after => stop.IsForeseen ∧
        ((∀ current new, call = .preprocess current new → ¬ stop.IsWeightless) →
          ∃ inStep, after.1.Intact inStep layouts) := by
  cases call with
  | preprocess current new =>
      rw [Call.serve, yields_first]
      apply intact.yields_preprocess.imp
      · exact fun _ _ opened _ => ⟨true, opened⟩
      · rintro stop after (weightless | ⟨foreseen, kept⟩)
        · exact ⟨weightless.isForeseen, fun weighed => absurd weightless (weighed _ _ rfl)⟩
        · exact ⟨foreseen, fun _ => ⟨inStep, kept⟩⟩
  | postprocess =>
      rw [Call.serve, yields_first]
      apply intact.yields_postprocess.imp
      · exact fun _ _ closed _ => ⟨false, closed⟩
      · rintro stop _ ⟨foreseen, rfl⟩
        exact ⟨foreseen, fun _ => ⟨inStep, intact⟩⟩
  | _ =>
      apply (intact.yields_serve_between ?opens ?closes).imp
      · exact fun _ _ kept keeps => ⟨inStep, kept keeps⟩
      · exact fun _ _ stopped => ⟨stopped.1, fun _ => ⟨inStep, stopped.2⟩⟩
      case opens =>
        intro current new same
        cases same
      case closes =>
        intro same
        cases same

theorem Intact.safe {inStep : Bool} {layouts : List FieldLayout} {c : Coordinator shape α}
    (intact : c.Intact inStep layouts) (field : Vec3 α → α → Vec3 α) (tally : SpreadTally α) :
    c.Safe (AnalyticFlow.transfer shape.dim field) tally where
  foreseen := by
    intro call stop after stops
    have served := intact.yields_serve call field tally
    rw [Yields, stops] at served
    exact served.1
  closing := by
    intro stop after stops
    have closed : (Call.serve (AnalyticFlow.transfer shape.dim field) .postprocess).Yields
        (c, tally) (fun _ _ => True) fun _ after => after = (c, tally) := by
      rw [Call.serve, yields_first]
      exact intact.yields_postprocess.imp (fun _ _ _ => trivial)
        fun _ _ refused => congrArg (·, tally) refused.2
    rw [Yields, stops] at closed
    exact closed
  fitting := fun _ unfit => exists_stop_of_not_fits unfit _ tally

/-- Registered structures that move rigidly are intact. -/
theorem intact_of_register {settings : Settings α}
    {descriptions : List (StructureDescription shape α)} {seat : Seat} (serial : seat.size = 1)
    (rigid : ∀ description ∈ descriptions, description.nodalVelocity = .rigid shape.dim)
    {c : Coordinator shape α} (created : (register settings descriptions seat).alone = .ok c) :
    c.Intact false (c.structures.map (·.layout)) := by
  rcases exists_bodies_of_register created with ⟨bodies, made, rfl⟩
  exact {
    serial := serial
    phase := rfl
    window := rfl
    structures := by
      rw [List.forall₂_map_left_iff, List.forall₂_same]
      intro body member
      rcases List.getElem_of_mem member with ⟨part, inside, rfl⟩
      have described : part < descriptions.length := made.length_eq ▸ inside
      exact intact_of_setUp serial (rigid _ (List.getElem_mem described))
        (made.get described inside)
    currentForces := rfl
    newForces := rfl }

section

variable {settings : Settings α} {descriptions : List (StructureDescription shape α)}
  {seat : Seat} {c : Coordinator shape α}

/-- Reachable coordinators are intact, in a step or outside of it. -/
theorem exists_intact_of_reachable (serial : seat.size = 1)
    (rigid : ∀ description ∈ descriptions, description.nodalVelocity = .rigid shape.dim)
    (reachable : Reachable settings descriptions seat c) :
    ∃ inStep layouts, c.Intact inStep layouts := by
  induction reachable with
  | registered created =>
      exact ⟨false, _, intact_of_register serial rigid created⟩
  | @called c earlier call field tally edits weighed ih =>
      rcases ih with ⟨inStep, layouts, intact⟩
      have served := intact.yields_serve call field tally
      rw [serveAlone]
      rw [Yields] at served
      rcases result_eq : (call.serve (AnalyticFlow.transfer shape.dim field)).alone (c, tally) with
        ⟨stop | _, after⟩
      · rw [result_eq] at served
        rcases served.2 fun current new opening weightless =>
          weighed current new opening ⟨stop, after, result_eq, weightless⟩ with ⟨inStep', kept⟩
        exact ⟨inStep', layouts, kept⟩
      · rw [result_eq] at served
        rcases served fun time change handed => (edits time change handed).keepsLayouts with
          ⟨inStep', kept⟩
        exact ⟨inStep', layouts, kept⟩

/-- A run of calls with one flow leads from a reachable coordinator to another one. -/
theorem Reachable.runAlone {field : Vec3 α → α → Vec3 α} {calls : List (Call shape α)}
    (edits : ∀ time change, .changeForces time change ∈ calls → IsEditing change) :
    ∀ {c : Coordinator shape α} {tally : SpreadTally α},
      Reachable settings descriptions seat c →
      (∀ i current new, calls[i]? = some (.preprocess current new) →
        ¬ Call.StopsWeightless (.preprocess current new)
          (AnalyticFlow.transfer shape.dim field)
          (Coordinator.runAlone (AnalyticFlow.transfer shape.dim field) (c, tally)
            (calls.take i))) →
        Reachable settings descriptions seat
          (Coordinator.runAlone (AnalyticFlow.transfer shape.dim field) (c, tally) calls).1 := by
  induction calls with
  | nil =>
      exact fun reachable _ => reachable
  | cons call calls ih =>
      intro c tally reachable weighed
      have next := reachable.called call field tally
        (fun time change handed => edits time change (handed ▸ List.mem_cons_self))
        (by
          rintro current new rfl
          exact weighed 0 current new rfl)
      apply ih (fun time change member => edits time change (List.mem_cons_of_mem _ member)) next
      intro i current new found
      exact weighed (i + 1) current new found

/--
What belongs to a step is present in a reachable coordinator exactly in a step, all fields have
the layout of their structure, and all positions are synchronized.  Whatever is called next, with
whatever analytic flow, succeeds or stops for a reason that callers have to reckon with.  A
step whose closing is refused stays open as it is, and operands that no structure fits are refused
before anything changes.
-/
theorem whole_of_reachable (serial : seat.size = 1)
    (rigid : ∀ description ∈ descriptions, description.nodalVelocity = .rigid shape.dim)
    (reachable : Reachable settings descriptions seat c) :
    c.Whole ∧ ∀ field tally, c.Safe (AnalyticFlow.transfer shape.dim field) tally := by
  rcases exists_intact_of_reachable serial rigid reachable with ⟨inStep, layouts, intact⟩
  exact ⟨intact.whole, intact.safe⟩

end

/-- A step with a closing that is refused, since a force waits to be spread, and the next step. -/
def callsOverSteps : List (Call .triangle ℚ) :=
  [.preprocess 0 1, .requestInterpolation (1 / 2), .interpolate (1 / 2),
    .advance .forwardEuler 0 1, .changeForces 1 (·.edit (.part 0 (.set 0 5))),
    .setForce ⟨[uniformForce 1]⟩ 0 2, .postprocess, .computeForce 3 (uniformForce 1), .spread 0,
    .advance .midpoint 0 1, .postprocess, .preprocess 1 2]

/-- A flow with the same velocity everywhere. -/
def uniformFlow : FlowTransfer ℚ (SpreadTally ℚ) :=
  AnalyticFlow.transfer Shape.triangle.dim fun _ _ => ⟨1, 0, 0⟩

theorem triangle_whole_over_steps :
    let reached := runAlone uniformFlow (ofTriangle, .empty) callsOverSteps
    reached.1.protocol.phase.inStep = true ∧ reached.1.Whole ∧
      reached.1.Safe uniformFlow reached.2 := by
  intro reached
  have created : (register ⟨"triangle", 0, 1 / 10⟩ [triangle] Seat.alone).alone =
      .ok ofTriangle :=
    eq_ok_get _
  have edits : ∀ time change, .changeForces time change ∈ callsOverSteps → IsEditing change := by
    intro time change member
    simp only [callsOverSteps, List.mem_cons, reduceCtorEq, false_or, List.not_mem_nil, or_false,
      Call.changeForces.injEq] at member
    rw [member.2]
    exact fun composite => ⟨[.part 0 (.set 0 5)], rfl⟩
  have weighed : ∀ i current new, callsOverSteps[i]? = some (.preprocess current new) →
      ¬ Call.StopsWeightless (.preprocess current new) uniformFlow
        (runAlone uniformFlow (ofTriangle, .empty) (callsOverSteps.take i)) := by
    intro i current new found
    apply Call.Succeeds.not_stopsWeightless
    match i with
    | 0 | 11 =>
        cases found
        rw [Call.Succeeds]
        decide +kernel
    | 1 | 2 | 3 | 4 | 5 | 6 | 7 | 8 | 9 | 10 =>
        cases found
    | i + 12 =>
        cases found
  have reachable := Reachable.runAlone edits (.registered created) weighed
  have rigid : ∀ description ∈ [triangle],
      description.nodalVelocity = .rigid Shape.triangle.dim := by
    simp [triangle]
  rcases whole_of_reachable rfl rigid reachable with ⟨whole, safe⟩
  exact ⟨by decide +kernel, whole, safe _ reached.2⟩

end Coordinator

end ImmersedBody
