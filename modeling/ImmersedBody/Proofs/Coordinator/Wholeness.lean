import ImmersedBody.Proofs.Coordinator.Currents
import ImmersedBody.Proofs.Coordinator.Integrity

/-!
# Whole coordinators

On the only rank, what belongs to a step is present exactly in a step: its window, the
fields of all structures, and both composite constraint forces.  All fields have the
layout of their structure, and positions are synchronized.  `Coordinator.Intact` says
this in a form that operations keep: the layouts are listed once, and every part of the
coordinator is compared with the list.
-/

namespace ImmersedBody

open ImmersedBody.Action RigidStructure

variable {α β σ : Type} {shape : Shape}

namespace Coordinator

/-- Composite forces exist exactly in a step, and their parts are laid out like the structures. -/
def Allocated (inStep : Bool) (layouts : List FieldLayout) (forces : Option (CompositeField α)) :
    Prop :=
  forces.map (fun composite => composite.parts.map (·.layout)) =
    if inStep then some layouts else none

variable [Scalar α]

/-- A coordinator on the only rank in which nothing is missing, in a step or outside of it. -/
structure Intact (inStep : Bool) (layouts : List FieldLayout) (c : Coordinator shape α) : Prop where
  serial : c.seat.size = 1
  phase : c.protocol.phase.inStep = inStep
  window : c.protocol.window.isSome = inStep
  structures : List.Forall₂ (RigidStructure.Intact inStep) layouts c.structures
  currentForces : Allocated inStep layouts c.currentForces
  newForces : Allocated inStep layouts c.newForces

namespace Intact

variable {inStep : Bool} {layouts : List FieldLayout} {c : Coordinator shape α}

theorem withProtocol (intact : c.Intact inStep layouts) {protocol : StepProtocol α}
    (same : c.protocol.SameStep protocol) : { c with protocol }.Intact inStep layouts :=
  { intact with
    phase := same.inStep_eq.trans intact.phase
    window := by
      rw [same.window_eq]
      exact intact.window }

theorem withStructures (intact : c.Intact inStep layouts)
    {structures : List (RigidStructure shape α)}
    (all : List.Forall₂ (RigidStructure.Intact inStep) layouts structures) :
    { c with structures }.Intact inStep layouts :=
  { intact with structures := all }

/-- With a window a step is open. -/
theorem inStep_of_window (intact : c.Intact inStep layouts) {window : StepWindow α}
    (found : c.protocol.window = some window) : inStep = true := by
  rw [← intact.window, found]
  rfl

theorem inStep_of_check (intact : c.Intact inStep layouts) {operation : Operation}
    {window : StepWindow α} (checked : c.protocol.check operation = .ok window) :
    inStep = true := by
  rcases StepProtocol.check_eq_ok_iff.mp checked with ⟨-, -, found⟩
  exact intact.inStep_of_window found

/-- The structure with a number has the layout with this number. -/
theorem exists_layout (intact : c.Intact inStep layouts) {part : Nat}
    {body : RigidStructure shape α} (found : c.structures[part]? = some body) :
    ∃ layout, layouts[part]? = some layout ∧ body.Intact inStep layout := by
  rcases List.getElem?_eq_some_iff.mp found with ⟨inside, rfl⟩
  have known : part < layouts.length := intact.structures.length_eq ▸ inside
  exact ⟨layouts[part], List.getElem?_eq_getElem known, intact.structures.get known inside⟩

/-- A change of one structure. -/
theorem modifyStructure (intact : c.Intact inStep layouts) (part : Nat)
    {change : RigidStructure shape α → RigidStructure shape α}
    (changes : ∀ layout body, layouts[part]? = some layout → body.Intact inStep layout →
      (change body).Intact inStep layout) :
    { c with structures := c.structures.modify part change }.Intact inStep layouts := by
  apply intact.withStructures
  have all := intact.structures
  revert changes
  generalize c.structures = structures at all
  intro changes
  clear intact
  induction all generalizing part with
  | nil =>
      rw [List.modify_nil]
      exact .nil
  | cons first rest ih =>
      cases part with
      | zero =>
          exact .cons (changes _ _ rfl first) rest
      | succ part =>
          exact .cons first (ih part changes)

/-- Other forces with the same layouts, where there are forces. -/
theorem withForcesAt (intact : c.Intact inStep layouts) {level : TimeLevel}
    {forces changed : CompositeField α} (found : c.forcesAt level = some forces)
    (same : changed.parts.map (·.layout) = forces.parts.map (·.layout)) :
    (c.withForcesAt level changed).Intact inStep layouts := by
  have kept {here : Option (CompositeField α)} (allocated : Allocated inStep layouts here)
      (here_eq : here = some forces) : Allocated inStep layouts (some changed) := by
    rw [Allocated, here_eq, Option.map_some, ← same] at allocated
    exact allocated
  cases level with
  | current =>
      exact { intact with currentForces := kept intact.currentForces found }
  | half =>
      exact intact
  | new =>
      exact { intact with newForces := kept intact.newForces found }

/-- In a step both composite forces are there. -/
theorem exists_forcesAt (intact : c.Intact true layouts) {level : TimeLevel}
    (notHalf : level ≠ .half) : ∃ forces, c.forcesAt level = some forces ∧
      forces.parts.map (·.layout) = layouts := by
  cases level with
  | current =>
      exact Option.map_eq_some_iff.mp intact.currentForces
  | half =>
      exact absurd rfl notHalf
  | new =>
      exact Option.map_eq_some_iff.mp intact.newForces

/-! ## Rules -/

theorem maintains_committing (intact : c.Intact inStep layouts)
    {operation : StepProtocol α → Except (Violation α) (StepOutcome α β)}
    (same : ∀ outcome, operation c.protocol = .ok outcome →
      c.protocol.SameStep outcome.protocol) :
    (committing operation : Work shape α β).Maintains c (Coordinator.Intact inStep layouts) := by
  rw [Maintains, yields_committing]
  cases accepted : operation c.protocol with
  | error violation =>
      exact ⟨trivial, intact⟩
  | ok outcome =>
      exact intact.withProtocol (same outcome accepted)

/-- Work on all structures that keeps each of them intact. -/
theorem maintains_forEachStructure (intact : c.Intact inStep layouts)
    {action : Nat → Action α (RigidStructure shape α) Unit}
    (each : ∀ part layout body, body.Intact inStep layout →
      (action part).Maintains body (RigidStructure.Intact inStep layout)) :
    (forEachStructure action).Maintains c (Coordinator.Intact inStep layouts) := by
  apply (yields_forEachStructure intact.structures fun part layout body _ =>
    each part layout body).imp
  · rintro _ _ ⟨structures, all, rfl⟩
    exact intact.withStructures all
  · rintro stop _ ⟨foreseen, structures, all, rfl⟩
    refine ⟨foreseen, intact.withStructures ?_⟩
    exact all.imp fun _ _ left => left.elim id fun left => left.elim id id

theorem maintains_forStructures (intact : c.Intact inStep layouts)
    {action : Nat → Action α (RigidStructure shape α × σ) Unit} {state : σ}
    (each : ∀ part layout body state, body.Intact inStep layout →
      (action part).Maintains (body, state) fun after => after.1.Intact inStep layout) :
    (forStructures action).Maintains (c, state) fun after => after.1.Intact inStep layouts := by
  apply (yields_forStructures action state intact.structures fun part layout body state _ =>
    each part layout body state).imp
  · rintro _ ⟨_, after⟩ ⟨structures, all, rfl⟩
    exact intact.withStructures all
  · rintro stop ⟨_, after⟩ ⟨foreseen, structures, all, rfl⟩
    refine ⟨foreseen, intact.withStructures ?_⟩
    exact all.imp fun _ _ left => left.elim id fun left => left.elim id id

/-- Work on the structure with a number, if there is one. -/
theorem maintains_onStructure (intact : c.Intact inStep layouts) {part : Nat}
    {action : Action α (RigidStructure shape α) β}
    (works : ∀ layout body, body.Intact inStep layout →
      action.Maintains body (RigidStructure.Intact inStep layout)) :
    (onStructure part action).Maintains c (Coordinator.Intact inStep layouts) := by
  rw [Maintains, yields_onStructure]
  cases found : c.structures[part]? with
  | none =>
      exact intact
  | some body =>
      rcases intact.exists_layout found with ⟨layout, known, here⟩
      have placed {after : RigidStructure shape α} (fits : after.Intact inStep layout) :
          { c with structures := c.structures.set part after }.Intact inStep layouts := by
        rw [List.set_eq_modify]
        apply intact.modifyStructure part
        intro other body known' _
        rw [known, Option.some.injEq] at known'
        rw [← known']
        exact fits
      apply (works layout body here).imp
      · exact fun value after fits => placed fits
      · exact fun stop after stopped => ⟨stopped.1, placed stopped.2⟩

end Intact

end Coordinator

end ImmersedBody
