import ImmersedBody.Proofs.Coordinator.Work
import ImmersedBody.Proofs.Ranks.Possibilities

/-!
# What work of a coordinator leads to in any case

The rules of `Action.Ensures` and `Action.Upholds` for the ways in which the work of
a coordinator is put together.  What work on all structures does to them is stated
with labels: each structure is related to its own.
-/

namespace ImmersedBody

open ImmersedBody.Action

variable {α σ ι β : Type} {shape : Shape}

namespace Coordinator

variable {c : Coordinator shape α} {post : β → Coordinator shape α → Prop}
  {stopped : Coordinator shape α → Prop}

@[simp]
theorem ensures_attempting {what : Attempt} {work : Work shape α β} :
    (attempting what work).Ensures c post stopped ↔ work.Ensures c post stopped := by
  rw [attempting, ensures_bind, ensures_get, ensures_attempt]

@[simp]
theorem ensures_checking {what : Attempt} {check : Coordinator shape α → Except (Violation α) β} :
    (checking what check).Ensures c post stopped ↔
      match check c with
      | .ok value => post value c
      | .error _ => stopped c := by
  rw [checking, ensures_bind, ensures_get, ensures_attempting]
  exact ensures_require

@[simp]
theorem ensures_committing
    {operation : StepProtocol α → Except (Violation α) (StepOutcome α β)} :
    (committing operation : Work shape α β).Ensures c post stopped ↔
      match operation c.protocol with
      | .ok outcome => post outcome.value { c with protocol := outcome.protocol }
      | .error _ => stopped c := by
  rw [committing, ensures_bind, ensures_get, ensures_bind, ensures_require]
  cases operation c.protocol with
  | error violation =>
      rfl
  | ok outcome =>
      simp

section

variable {ι : Type} {labels : List ι} {before done halted : ι → RigidStructure shape α → Prop}

/-- Work on all structures, given what it does to one of them. -/
theorem ensures_forStructures {action : Nat → Action α (RigidStructure shape α × σ) Unit}
    (each : ∀ part label body state, before label body →
      (action part).Ensures (body, state) (fun _ after => done label after.1)
        fun after => halted label after.1)
    (labelled : List.Forall₂ before labels c.structures) (state : σ) :
    (forStructures action).Ensures (c, state)
      (fun _ after => ∃ structures, List.Forall₂ done labels structures ∧
        after.1 = { c with structures })
      fun after => ∃ structures, List.Forall₂ (fun label body => done label body ∨
        halted label body ∨ before label body) labels structures ∧
          after.1 = { c with structures } := by
  rw [forStructures, ensures_of, Task.always_bind]
  apply Task.Always.imp (always_onEach each state labelled)
  rintro ⟨_ | _, structures, after⟩ all <;> exact ⟨structures, all, rfl⟩

theorem ensures_forEachStructure {action : Nat → Action α (RigidStructure shape α) Unit}
    (each : ∀ part label body, before label body →
      (action part).Ensures body (fun _ after => done label after) fun after => halted label after)
    (labelled : List.Forall₂ before labels c.structures) :
    (forEachStructure action).Ensures c
      (fun _ after => ∃ structures, List.Forall₂ done labels structures ∧
        after = { c with structures })
      fun after => ∃ structures, List.Forall₂ (fun label body => done label body ∨
        halted label body ∨ before label body) labels structures ∧
          after = { c with structures } := by
  rw [forEachStructure, ensures_of, Task.always_bind]
  have firsts : ∀ part label body (state : Unit), before label body →
      (action part).first.Ensures (body, state) (fun _ after => done label after.1)
        fun after => halted label after.1 := by
    intro part label body state here
    rw [ensures_first]
    exact each part label body here
  apply Task.Always.imp (ensures_forStructures firsts labelled ())
  rintro ⟨_ | _, after, _⟩ ended <;> exact ended

end

theorem ensures_onStructure {part : Nat} {action : Action α (RigidStructure shape α) β}
    {post : Option β → Coordinator shape α → Prop} :
    (onStructure part action).Ensures c post stopped ↔
      match c.structures[part]? with
      | none => post none c
      | some body => action.Ensures body
          (fun value after => post (some value)
            { c with structures := c.structures.set part after })
          fun after => stopped { c with structures := c.structures.set part after } := by
  rw [onStructure, ensures_of]
  cases c.structures[part]? with
  | none =>
      rfl
  | some body =>
      rw [Task.always_bind]
      apply Task.always_congr
      rintro ⟨_ | _, _⟩ <;> rfl

/-! ## What is kept of the structures -/

variable {related : ι → RigidStructure shape α → Prop} {labels : List ι}

/-- The structures have labels to which they are related. -/
def Labelled (related : ι → RigidStructure shape α → Prop) (labels : List ι)
    (c : Coordinator shape α) : Prop :=
  List.Forall₂ related labels c.structures

theorem upholds_attempting {kept : Coordinator shape α → Prop} {what : Attempt}
    {work : Work shape α β} (upholds : Upholds kept work) :
    Upholds kept (attempting what work) := by
  intro c before
  rw [ensures_attempting]
  exact upholds c before

theorem upholds_checking {kept : Coordinator shape α → Prop} {what : Attempt}
    {check : Coordinator shape α → Except (Violation α) β} :
    Upholds kept (checking what check) := by
  intro c before
  rw [ensures_checking]
  cases check c <;> exact before

theorem upholds_committing {operation : StepProtocol α → Except (Violation α) (StepOutcome α β)} :
    Upholds (Labelled related labels) (committing operation : Work shape α β) := by
  intro c before
  rw [ensures_committing]
  cases operation c.protocol <;> exact before

theorem upholds_forStructures {action : Nat → Action α (RigidStructure shape α × σ) Unit}
    (each : ∀ part label, Upholds (fun state => related label state.1) (action part)) :
    Upholds (fun state : Coordinator shape α × σ => Labelled related labels state.1)
      (forStructures action) := by
  rintro ⟨c, state⟩ before
  apply (ensures_forStructures (fun part label body state => each part label (body, state))
    before state).imp
  · rintro _ ⟨_, _⟩ ⟨structures, all, rfl⟩
    exact all
  · rintro ⟨_, _⟩ ⟨structures, all, rfl⟩
    exact all.imp fun _ _ kept => kept.elim id (Or.elim · id id)

theorem upholds_onDemand {what : Attempt} {check : Coordinator shape α → Except (Violation α) β}
    {consume : StepProtocol α → Except (Violation α) (StepOutcome α Bool)}
    {each : Coordinator shape α → β → Nat → Action α (RigidStructure shape α × σ) Unit}
    (upholds : ∀ c value part label,
      Upholds (fun state => related label state.1) (each c value part)) :
    Upholds (fun state : Coordinator shape α × σ => Labelled related labels state.1)
      (onDemand what check consume each) := by
  rw [onDemand]
  apply upholds_get_bind
  rintro ⟨c, _⟩ _
  apply upholds_bind (upholds_first upholds_checking)
  intro value
  apply upholds_bind (upholds_first (upholds_attempting upholds_committing))
  intro demanded
  split
  · exact upholds_forStructures fun part label => upholds c value part label
  · exact upholds_pure ()

theorem upholds_forEachStructure {action : Nat → Action α (RigidStructure shape α) Unit}
    (each : ∀ part label, Upholds (related label) (action part)) :
    Upholds (Labelled related labels) (forEachStructure action) := by
  intro c before
  apply (ensures_forEachStructure each before).imp
  · rintro _ _ ⟨structures, all, rfl⟩
    exact all
  · rintro _ ⟨structures, all, rfl⟩
    exact all.imp fun _ _ kept => kept.elim id (Or.elim · id id)

/-- A structure may be replaced by one that is related to the same label. -/
theorem Labelled.set (labelled : c.Labelled related labels) {part : Nat}
    {after : RigidStructure shape α}
    (same : ∀ inside : part < labels.length, related labels[part] after) :
    Labelled related labels { c with structures := c.structures.set part after } := by
  rcases List.forall₂_iff_get.mp labelled with ⟨length_eq, each⟩
  refine List.forall₂_iff_get.mpr ⟨by simpa using length_eq, fun i inside inside' => ?_⟩
  by_cases here : part = i
  · subst here
    simpa using same inside
  · simpa [List.getElem_set_ne here] using each i inside (by simpa using inside')

theorem upholds_onStructure {part : Nat} {action : Action α (RigidStructure shape α) β}
    (each : ∀ label, Upholds (related label) action) :
    Upholds (Labelled related labels) (onStructure part action) := by
  intro c before
  rw [ensures_onStructure]
  cases found : c.structures[part]? with
  | none =>
      exact before
  | some body =>
      rcases List.getElem?_eq_some_iff.mp found with ⟨inside, rfl⟩
      rcases List.forall₂_iff_get.mp before with ⟨length_eq, here⟩
      have works := each labels[part] _ (here part (length_eq ▸ inside) inside)
      exact works.imp (fun _ _ after => Labelled.set before fun _ => after)
        fun _ after => Labelled.set before fun _ => after

end Coordinator

end ImmersedBody
