import ImmersedBody.Proofs.Coordinator.Bodies

/-!
# What work leaves alone

A *view* of a state is a function of it, for example the protocol of a
coordinator.  `Action.Fixes` says that an action leaves a view as it is, whether
it ends with a value or stops.  There is one rule for each way to put actions
together, so that a frame condition of an operation is found from those of its
parts.
-/

namespace ImmersedBody

variable {α σ τ ρ β γ : Type} {shape : Shape}

namespace Action

/-- The action leaves a view of the state as it is, also if it stops. -/
def Fixes (view : σ → ρ) (action : Action α σ β) : Prop :=
  ∀ state, action.Ends state (fun _ after => view after = view state)
    fun after => view after = view state

variable {view : σ → ρ} {action : Action α σ β}

theorem fixes_bind {f : β → Action α σ γ} (first : Fixes view action)
    (later : ∀ value, Fixes view (f value)) : Fixes view (action >>= f) := by
  intro state
  rw [ends_bind]
  apply (first state).imp
  · intro value after same
    rw [← same]
    exact later value after
  · exact fun _ same => same

theorem fixes_pure (value : β) : Fixes view (pure value : Action α σ β) :=
  fun _ => rfl

theorem fixes_get : Fixes view (get : Action α σ σ) :=
  fun _ => rfl

theorem fixes_refuse (cause : Cause α) : Fixes view (Action.refuse cause : Action α σ β) :=
  fun _ => rfl

theorem fixes_tell (notices : List (Notice α)) :
    Fixes view (Action.tell notices : Action α σ Unit) := by
  intro state
  rw [ends_tell]

theorem fixes_collective (work : Collective α β) :
    Fixes view (Action.collective work : Action α σ β) := by
  intro state
  rw [ends_collective]
  cases work.alone <;> rfl

theorem fixes_attempt {objectName : String} {what : Attempt} (fixes : Fixes view action) :
    Fixes view (action.attempt objectName what) := by
  intro state
  rw [ends_attempt]
  exact fixes state

theorem fixes_modify {change : σ → σ} (same : ∀ state, view (change state) = view state) :
    Fixes view (modify change : Action α σ Unit) := by
  intro state
  rw [ends_modify]
  exact same state

theorem fixes_ite {condition : Prop} [Decidable condition] {other : Action α σ β}
    (holds : Fixes view action) (fails : Fixes view other) :
    Fixes view (if condition then action else other) := by
  split
  · exact holds
  · exact fails

/-- An action on the first of two states. -/
theorem fixes_first (fixes : Fixes view action) :
    Fixes (fun state : σ × τ => view state.1) (Action.first action) := by
  intro state
  rw [ends_first]
  exact fixes state.1

end Action

/-- Lists whose members have the same views have the same list of views. -/
theorem map_eq_of_forall₂ {view : τ → ρ} {before after : List τ}
    (same : List.Forall₂ (fun x y => view y = view x) before after) :
    after.map view = before.map view := by
  induction same with
  | nil =>
      rfl
  | cons first later ih =>
      rw [List.map_cons, List.map_cons, first, ih]

namespace Coordinator

open ImmersedBody.Action

/-- A view of a coordinator that reads its structures through a view of each of them. -/
def ReadsThrough (bodyView : RigidStructure shape α → τ) (view : Coordinator shape α → ρ) : Prop :=
  ∀ c structures, structures.map bodyView = c.structures.map bodyView →
    view { c with structures } = view c

variable {view : Coordinator shape α → ρ}

theorem fixes_attempting {what : Attempt} {work : Work shape α β} (fixes : Fixes view work) :
    Fixes view (attempting what work) := by
  intro c
  rw [ends_attempting]
  exact fixes c

theorem fixes_checking {what : Attempt} {check : Coordinator shape α → Except (Violation α) β} :
    Fixes view (checking what check) := by
  intro c
  rw [ends_checking]
  cases check c <;> rfl

theorem fixes_committing {operation : StepProtocol α → Except (Violation α) (StepOutcome α β)}
    (same : ∀ c outcome, operation c.protocol = .ok outcome →
      view { c with protocol := outcome.protocol } = view c) :
    Fixes view (committing operation : Work shape α β) := by
  intro c
  rw [ends_committing]
  cases accepted : operation c.protocol with
  | error violation =>
      rfl
  | ok outcome =>
      exact same c outcome accepted

variable {bodyView : RigidStructure shape α → τ}

/-- Work on all structures fixes what is read through a view that work on each of them fixes. -/
theorem fixes_forStructures {action : Nat → Action α (RigidStructure shape α × σ) Unit}
    (through : ReadsThrough bodyView view)
    (each : ∀ part, Fixes (fun state => bodyView state.1) (action part)) :
    Fixes (fun state : Coordinator shape α × σ => view state.1) (forStructures action) := by
  rintro ⟨c, state⟩
  apply ends_forStructures (fun _ body after => bodyView after = bodyView body)
    (fun _ body after => bodyView after = bodyView body) (fun _ _ => True) (fun _ => True)
  · intro part body state _ _
    exact (each part (body, state)).imp (fun _ _ same => ⟨same, trivial⟩)
      fun _ same => ⟨same, trivial⟩
  · trivial
  · intro structures _ finished _
    exact through c structures (map_eq_of_forall₂ (finished.forall₂ fun _ _ _ same => same))
  · intro structures _ stopped _
    exact through c structures (map_eq_of_forall₂ (stopped.forall₂ (fun _ _ _ same => same)
      (fun _ _ _ same => same) fun _ _ => rfl))

theorem fixes_forEachStructure {action : Nat → Action α (RigidStructure shape α) Unit}
    (through : ReadsThrough bodyView view) (each : ∀ part, Fixes bodyView (action part)) :
    Fixes view (forEachStructure action) := by
  intro c
  apply ends_forEachStructure (fun _ body after => bodyView after = bodyView body)
    (fun _ body after => bodyView after = bodyView body)
  · intro part body _
    exact each part body
  · intro structures finished
    exact through c structures (map_eq_of_forall₂ (finished.forall₂ fun _ _ _ same => same))
  · intro structures stopped
    exact through c structures (map_eq_of_forall₂ (stopped.forall₂ (fun _ _ _ same => same)
      (fun _ _ _ same => same) fun _ _ => rfl))

theorem fixes_onStructure {part : Nat} {action : Action α (RigidStructure shape α) β}
    (through : ReadsThrough bodyView view) (each : Fixes bodyView action) :
    Fixes view (onStructure part action) := by
  intro c
  rw [ends_onStructure]
  cases found : c.structures[part]? with
  | none =>
      rfl
  | some body =>
      rcases List.getElem?_eq_some_iff.mp found with ⟨inside, rfl⟩
      have replaced (after : RigidStructure shape α)
          (same : bodyView after = bodyView c.structures[part]) :
          view { c with structures := c.structures.set part after } = view c := by
        apply through
        rw [List.map_set, same, ← List.map_set, List.set_getElem_self]
      exact (each _).imp (fun _ => replaced) replaced

end Coordinator

end ImmersedBody
