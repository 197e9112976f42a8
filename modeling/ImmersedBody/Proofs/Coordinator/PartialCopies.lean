import ImmersedBody.Proofs.Coordinator.Velocities
import ImmersedBody.Proofs.Coordinator.Rejections
import ImmersedBody.Proofs.Field.Composites

/-!
# Composites that are left half written

The solver copies composites to one another and reads the velocities of the structures
into a composite.  Both go from part to part, and both compare the layout of a part
only when they come to it.  `composites_written_in_order` says when they succeed, what
they leave when they fail, and when they leave the composite as it was: if they are
refused before they begin, or if the parts in front of the first misfit held before
what has been copied into them.  `misfit_behind_leaves_trace` is a composite of two
parts that is left changed by both.
-/

namespace ImmersedBody

open CompositeField

variable {α : Type} [Scalar α] {shape : Shape}

namespace RigidStructure

/-- What is read from a structure: its half-time velocity in a step, times a factor. -/
def offeredVelocity (factor : α) (body : RigidStructure shape α) : Option (NodalField α) :=
  body.step.map fun step => step.halfVelocity.scale factor

end RigidStructure

namespace Coordinator

/-- Reading overwrites the parts of a composite in order. -/
theorem inOrder_copyVelocities (factor : α) {bodies : List (RigidStructure shape α)}
    {targets : List (NodalField α)} (same : targets.length = bodies.length) (part : Nat) :
    InOrder targets (bodies.map (RigidStructure.offeredVelocity factor))
      (copyVelocities factor part bodies targets) := by
  induction bodies generalizing targets part with
  | nil =>
      rw [List.eq_nil_of_length_eq_zero same]
      exact .nil
  | cons body bodies ih =>
      cases targets with
      | nil =>
          cases same
      | cons target targets =>
          have others := ih (Nat.succ.inj same) (part + 1)
          cases found : body.step with
          | none =>
              have offered : body.offeredVelocity factor = none := by
                rw [RigidStructure.offeredVelocity, found]
                rfl
              rw [copyVelocities, stepFields, found, List.map_cons, offered]
              apply InOrder.refuses
              rintro ⟨_, ⟨⟩, _⟩
          | some step =>
              have offered :
                  body.offeredVelocity factor = some (step.halfVelocity.scale factor) := by
                rw [RigidStructure.offeredVelocity, found]
                rfl
              rw [copyVelocities, stepFields, found, List.map_cons, offered]
              by_cases compatible : target.compatible step.halfVelocity = true
              · simp only [NodalField.copyFrom_of_compatible compatible]
                exact .takes compatible others
              · simp only [NodalField.copyFrom_of_incompatible compatible]
                apply InOrder.refuses
                rintro ⟨_, ⟨⟩, suits⟩
                exact compatible suits

/-- Whether the velocities at a time can be read into a composite, as far as is known beforehand. -/
def Hands (c : Coordinator shape α) (time : α) (target : CompositeField α) : Prop :=
  c.protocol.queryVelocity time = .ok () ∧ target.parts.length = c.count

/-- Reading the velocities of all structures overwrites the parts of a composite in order. -/
theorem writesInOrder_readVelocities (c : Coordinator shape α) (time factor : α)
    (target : CompositeField α) :
    WritesInOrder (c.Hands time target) target
      (c.structures.map (RigidStructure.offeredVelocity factor))
      (c.readVelocities time factor target) := by
  rw [readVelocities]
  cases queried : c.protocol.queryVelocity time with
  | error violation =>
      apply WritesInOrder.of_not_ready
      rintro ⟨accepted, -⟩
      rw [queried] at accepted
      cases accepted
  | ok =>
      by_cases same : target.parts.length = c.count
      · have ready : c.Hands time target := ⟨queried, same⟩
        have inOrder := inOrder_copyVelocities factor same 0
        rw [checkParts, if_pos same]
        generalize copyVelocities factor 0 c.structures target.parts = outcome at inOrder ⊢
        rcases outcome with ⟨failure | accepted, left⟩
        · exact .of_refused ready inOrder
        · exact .of_accepted ready inOrder
      · rw [checkParts, if_neg same]
        exact .of_not_ready fun ready => same ready.2

/--
A composite is overwritten in order when another one is copied to it, if they have as many parts,
and when the half-time velocities are read into it, if these can be asked for and there is a part
for every structure.
-/
theorem composites_written_in_order :
    (∀ source target : CompositeField α,
      WritesInOrder (target.parts.length = source.parts.length) target (source.parts.map some)
        (source.copyFrom target)) ∧
    ∀ (c : Coordinator shape α) (time factor : α) (target : CompositeField α),
      WritesInOrder (c.Hands time target) target
        (c.structures.map (RigidStructure.offeredVelocity factor))
        (c.readVelocities time factor target) :=
  ⟨writesInOrder_copyFrom, writesInOrder_readVelocities⟩

/-! ## Two triangles -/

/-- The two triangles after a step has been opened. -/
def openedTriangles : Coordinator .triangle ℚ :=
  (runAlone counting (ofTwoTriangles, 0) [.preprocess 0 1]).1

theorem attainable_openedTriangles :
    Attainable ⟨"triangles", 0, 1 / 10⟩ [triangle, drivenTriangle] .alone openedTriangles := by
  have registered : (register ⟨"triangles", 0, 1 / 10⟩ [triangle, drivenTriangle]
      Seat.alone).alone = .ok ofTwoTriangles :=
    eq_ok_get _
  exact (Attainable.registered registered).runAlone

/-- The velocities are read into parts that fit, and a first part that does not fit is kept. -/
theorem openedTriangles_hand_velocities :
    (∃ after, openedTriangles.readVelocities (1 / 2) 2 ⟨[uniformForce 1, uniformForce 1]⟩ =
        .ok () after ∧
      after.parts.map some =
        openedTriangles.structures.map (RigidStructure.offeredVelocity 2)) ∧
    ∀ failure after, openedTriangles.readVelocities (1 / 2) 2 ⟨[shortField 1, uniformForce 1]⟩ =
      .error failure after → after = ⟨[shortField 1, uniformForce 1]⟩ := by
  have written := composites_written_in_order (α := ℚ).2 openedTriangles (1 / 2) 2
  constructor
  · have takes : List.Forall₂ Takes [uniformForce 1, uniformForce 1]
        (openedTriangles.structures.map (RigidStructure.offeredVelocity 2)) := by
      decide +kernel
    have ready : openedTriangles.Hands (1 / 2) ⟨[uniformForce 1, uniformForce 1]⟩ := by
      rw [Hands]
      decide +kernel
    rcases (written ⟨[uniformForce 1, uniformForce 1]⟩).succeeds.mpr ⟨ready, takes⟩ with
      ⟨after, read⟩
    exact ⟨after, read, (written _).copies after read⟩
  · intro failure after refused
    apply ((written _).unchanged failure after refused).mpr
    intro _
    decide +kernel

/-- Whether work on a composite has failed, and the composite that it leaves. -/
def ending {ε : Type} : EStateM.Result ε (CompositeField ℚ) Unit → Bool × CompositeField ℚ
  | .ok _ after => (false, after)
  | .error _ after => (true, after)

/--
A second part of another length is noticed when the first one has been overwritten: by a copy, and
by reading velocities in a step.
-/
theorem misfit_behind_leaves_trace :
    ending (copyFrom ⟨[uniformForce 1, uniformForce 1]⟩ ⟨[uniformForce 0, shortField 0]⟩) =
        (true, ⟨[uniformForce 1, shortField 0]⟩) ∧
      (⟨[uniformForce 1, shortField 0]⟩ : CompositeField ℚ) ≠
        ⟨[uniformForce 0, shortField 0]⟩ ∧
      Attainable ⟨"triangles", 0, 1 / 10⟩ [triangle, drivenTriangle] .alone openedTriangles ∧
      openedTriangles.protocol.window.isSome ∧
      ending (openedTriangles.readVelocities (1 / 2) 1 ⟨[uniformForce 1, shortField 1]⟩) =
        (true, ⟨[uniformForce 0, shortField 1]⟩) ∧
      (⟨[uniformForce 0, shortField 1]⟩ : CompositeField ℚ) ≠
        ⟨[uniformForce 1, shortField 1]⟩ := by
  refine ⟨?_, ?_, attainable_openedTriangles, ?_⟩
  all_goals decide +kernel

end Coordinator

end ImmersedBody
