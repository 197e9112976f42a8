import ImmersedBody.Proofs.Ranks.Columns
import ImmersedBody.Proofs.Rigid.Shared

/-!
# Coordinators of a team

The members of a team share a coordinator if they share its structures and its
composite forces, and are in the same place of the same step.  Whatever a check
of the protocol says, it says to all members, so operations keep a coordinator
shared and end for all members in the same way.

This module has the rules to put operations together, and the operations that
open, advance and close a step.
-/

namespace ImmersedBody

open ImmersedBody.Action

variable {α σ β γ : Type} [Scalar α] {shape : Shape} {p : Nat}

/-- Each member of a team holds its part of a composite with one part per structure. -/
def SharedComposite (descriptions : List (StructureDescription shape α))
    (composites : Team p → CompositeField α) : Prop :=
  Columns (fun description => SharedField description.mesh) descriptions fun member =>
    (composites member).parts

/-- A composite that all members of a team have or none. -/
def SharedForces (descriptions : List (StructureDescription shape α))
    (forces : Team p → Option (CompositeField α)) : Prop :=
  (∀ member, forces member = none) ∨
    ∃ composites : Team p → CompositeField α, (∀ member, forces member = some (composites member)) ∧
      SharedComposite descriptions composites

/-- Each member of a team holds its part of one coordinator. -/
structure SharedCoordinator (settings : Settings α)
    (descriptions : List (StructureDescription shape α))
    (coordinators : Team p → Coordinator shape α) : Prop where
  settings : ∀ member, (coordinators member).settings = settings
  seat : ∀ member, (coordinators member).seat = member.seat
  structures : Columns SharedStructure descriptions fun member => (coordinators member).structures
  protocol : Same fun member => (coordinators member).protocol
  currentForces : SharedForces descriptions fun member => (coordinators member).currentForces
  newForces : SharedForces descriptions fun member => (coordinators member).newForces
  listeners : Same fun member => (coordinators member).listeners
  initialized : Same fun member => (coordinators member).initialized

variable {settings : Settings α} {descriptions : List (StructureDescription shape α)}

namespace SharedCoordinator

variable {coordinators : Team p → Coordinator shape α}

theorem name (shared : SharedCoordinator settings descriptions coordinators) (member : Team p) :
    (coordinators member).name = settings.objectName := by
  rw [Coordinator.name, shared.settings]

theorem count (shared : SharedCoordinator settings descriptions coordinators) (member : Team p) :
    (coordinators member).count = descriptions.length :=
  shared.structures.length_eq member

/-- The rows of the structures with a number. -/
theorem exists_structure (shared : SharedCoordinator settings descriptions coordinators)
    {part : Nat} {description : StructureDescription shape α}
    (inside : descriptions[part]? = some description) :
    ∃ bodies : Team p → RigidStructure shape α,
      (∀ member, (coordinators member).structures[part]? = some (bodies member)) ∧
        SharedStructure description bodies ∧
        ∀ bodies', SharedStructure description bodies' →
          SharedCoordinator settings descriptions fun member =>
            { coordinators member with
              structures := (coordinators member).structures.set part (bodies' member) } := by
  rcases shared.structures.exists_row inside with ⟨bodies, found, row, others⟩
  exact ⟨bodies, found, row, fun bodies' row' => { shared with structures := others bodies' row' }⟩

end SharedCoordinator

namespace Coordinator

/--
Work that keeps a coordinator of a team shared.  All members end with values
that belong together, or all stop for one reason.
-/
def SharedWork (settings : Settings α) (descriptions : List (StructureDescription shape α))
    (works : Team p → Work shape α β) (post : (Team p → β) → Prop) : Prop :=
  ∀ coordinators, SharedCoordinator settings descriptions coordinators →
    Joint works coordinators
      (fun values after => post values ∧ SharedCoordinator settings descriptions after)
      (SharedCoordinator settings descriptions)

variable {works : Team p → Work shape α β} {post : (Team p → β) → Prop}

/-! ## Rules -/

theorem SharedWork.imp {post' : (Team p → β) → Prop}
    (work : SharedWork settings descriptions works post)
    (weaker : ∀ values, post values → post' values) :
    SharedWork settings descriptions works post' :=
  fun coordinators shared => (work coordinators shared).weaken fun values _ ended =>
    ⟨weaker values ended.1, ended.2⟩

theorem sharedWork_bind {f : Team p → β → Work shape α γ} {post' : (Team p → γ) → Prop}
    (first : SharedWork settings descriptions works post)
    (later : ∀ values, post values →
      SharedWork settings descriptions (fun member => f member (values member)) post') :
    SharedWork settings descriptions (fun member => works member >>= f member) post' := by
  intro coordinators shared
  apply joint_bind (first coordinators shared)
  rintro values after ⟨good, shared⟩
  exact later values good after shared

/-- Work that looks at the coordinator first. -/
theorem sharedWork_get {f : Team p → Coordinator shape α → Work shape α β}
    (later : ∀ coordinators : Team p → Coordinator shape α,
      SharedCoordinator settings descriptions coordinators →
        Joint (fun member => f member (coordinators member)) coordinators
          (fun values after => post values ∧ SharedCoordinator settings descriptions after)
          (SharedCoordinator settings descriptions)) :
    SharedWork settings descriptions (fun member => get >>= f member) post := by
  intro coordinators shared
  apply joint_bind joint_get
  rintro _ _ ⟨rfl, rfl⟩
  exact later coordinators shared

theorem sharedWork_pure {values : Team p → β} (good : post values) :
    SharedWork settings descriptions (fun member => pure (values member)) post := by
  intro coordinators shared
  apply (joint_pure values).weaken
  rintro _ _ ⟨rfl, rfl⟩
  exact ⟨good, shared⟩

theorem sharedWork_tell (notices : Team p → List (Notice α)) :
    SharedWork settings descriptions (fun member => Action.tell (notices member)) Same := by
  intro coordinators shared
  apply (joint_tell notices).weaken
  rintro _ _ rfl
  exact ⟨fun _ => rfl, shared⟩

theorem sharedWork_modify {f : Team p → Coordinator shape α → Coordinator shape α}
    (keeps : ∀ coordinators, SharedCoordinator settings descriptions coordinators →
      SharedCoordinator settings descriptions fun member => f member (coordinators member)) :
    SharedWork settings descriptions (fun member => modify (f member)) fun _ => True := by
  intro coordinators shared
  apply (joint_modify f).weaken
  rintro _ _ rfl
  exact ⟨trivial, keeps coordinators shared⟩

theorem sharedWork_attempting {what : Attempt}
    (work : SharedWork settings descriptions works post) :
    SharedWork settings descriptions (fun member => attempting what (works member)) post := by
  apply sharedWork_get
  intro coordinators shared
  simp only [shared.name]
  exact joint_attempt (same_const _) (work coordinators shared)

/-- A check says the same to all members. -/
theorem sharedWork_checking {what : Attempt}
    {check : Team p → Coordinator shape α → Except (Violation α) β}
    (same : ∀ coordinators, SharedCoordinator settings descriptions coordinators →
      Same fun member => check member (coordinators member)) :
    SharedWork settings descriptions (fun member => checking what (check member)) Same := by
  show SharedWork settings descriptions (fun member =>
    attempting what (get >>= fun c => Action.require (check member c))) Same
  apply sharedWork_attempting
  apply sharedWork_get
  intro coordinators shared
  apply (joint_require (same coordinators shared) shared).weaken
  rintro _ _ ⟨value, -, rfl, rfl⟩
  exact ⟨same_const value, shared⟩

/-- An operation of the protocol leads all members to the same place. -/
theorem sharedWork_committing
    (operation : StepProtocol α → Except (Violation α) (StepOutcome α β)) :
    SharedWork settings descriptions (fun _ : Team p => committing operation) Same := by
  apply sharedWork_get
  intro coordinators shared
  apply joint_bind (joint_require (shared.protocol.map operation) shared)
  rintro _ _ ⟨outcome, -, rfl, rfl⟩
  apply joint_bind (joint_modify _)
  rintro _ _ rfl
  apply joint_bind (joint_tell _)
  rintro _ _ rfl
  apply (joint_pure _).weaken
  rintro _ _ ⟨rfl, rfl⟩
  exact ⟨same_const _, { shared with protocol := same_const _ }⟩

/-! ## Work on structures -/

/-- Work on every structure, together with a state of which nothing is asked. -/
theorem joint_forStructures {action : Team p → Nat → Action α (RigidStructure shape α × σ) Unit}
    (each : ∀ description part bodies (others : Team p → σ),
      descriptions[part]? = some description → SharedStructure description bodies →
        Joint (fun member => action member part) (fun member => (bodies member, others member))
          (fun _ after => SharedStructure description fun member => (after member).1)
          fun after => SharedStructure description fun member => (after member).1)
    {coordinators : Team p → Coordinator shape α}
    (shared : SharedCoordinator settings descriptions coordinators) (others : Team p → σ) :
    Joint (fun member => forStructures (action member))
      (fun member => (coordinators member, others member))
      (fun _ after => SharedCoordinator settings descriptions fun member => (after member).1)
      fun after => SharedCoordinator settings descriptions fun member => (after member).1 := by
  show Together _ fun member => Task.quiet (Task.bind
    (onEach (action member) 0 (coordinators member).structures (others member))
      fun result =>
        .done (result.1, { coordinators member with structures := result.2.1 }, result.2.2))
  simp only [Task.quiet_bind]
  apply Together.bind (together_onEach shared.structures _)
  · rintro _ ⟨outcome, afters, rest, rfl, refusals, columns⟩
    cases outcome with
    | ok value =>
        exact .done (Or.inl ⟨fun _ => value, _, rfl, { shared with structures := columns }⟩)
    | error stop =>
        exact .done (Or.inr ⟨stop, _, refusals stop rfl, rfl,
          { shared with structures := columns }⟩)
  · intro description part bodies others member row
    exact each description part bodies others (List.mem_zipIdx_iff_getElem?.mp member) row

theorem sharedWork_forEachStructure
    {action : Team p → Nat → Action α (RigidStructure shape α) Unit}
    (each : ∀ description part bodies, descriptions[part]? = some description →
      SharedStructure description bodies → Joint (fun member => action member part) bodies
        (fun _ => SharedStructure description) (SharedStructure description)) :
    SharedWork settings descriptions (fun member => forEachStructure (action member)) Same := by
  intro coordinators shared
  have all : Joint (fun member => forStructures fun part => (action member part).first)
      (fun member => (coordinators member, ()))
      (fun _ after => SharedCoordinator settings descriptions fun member => (after member).1)
      fun after => SharedCoordinator settings descriptions fun member => (after member).1 := by
    apply joint_forStructures _ shared
    intro description part bodies others inside row
    exact joint_first others (each description part bodies inside row)
  apply joint_within (fun _ (after : Coordinator shape α × Unit) => after.1) (fun _ => rfl)
  exact all.weaken fun _ _ after => ⟨fun _ => rfl, after⟩

/-- Work on the structure with a number, if there is one. -/
theorem sharedWork_onStructure {part : Nat}
    {action : Team p → Action α (RigidStructure shape α) β}
    {post : StructureDescription shape α → (Team p → β) → Prop}
    (each : ∀ description bodies, descriptions[part]? = some description →
      SharedStructure description bodies → Joint action bodies
        (fun values after => post description values ∧ SharedStructure description after)
        (SharedStructure description)) :
    SharedWork settings descriptions (fun member => onStructure part (action member)) fun found =>
      (descriptions[part]? = none ∧ found = fun _ => none) ∨
        ∃ description values, descriptions[part]? = some description ∧ post description values ∧
          found = fun member => some (values member) := by
  intro coordinators shared
  cases inside : descriptions[part]? with
  | none =>
      have outside : (fun member => ((onStructure part (action member)).on
          (coordinators member)).quiet) = fun member => .done (.ok none, coordinators member) := by
        funext member
        simp only [onStructure, Action.on, Action.of, ExceptT.run, ExceptT.mk,
          shared.structures.getElem?_eq_none inside]
        rfl
      rw [Joint, outside]
      exact .done (Or.inl ⟨_, _, rfl, Or.inl ⟨rfl, rfl⟩, shared⟩)
  | some description =>
      rcases shared.exists_structure inside with ⟨bodies, found, row, others⟩
      have onBody : (fun member => ((onStructure part (action member)).on
          (coordinators member)).quiet) = fun member =>
            ((action member).on (bodies member)).quiet.bind fun result =>
              .done (result.1.map some, { coordinators member with
                structures := (coordinators member).structures.set part result.2 }) := by
        funext member
        simp only [onStructure, Action.on, Action.of, ExceptT.run, ExceptT.mk, found,
          Task.quiet_bind]
        rfl
      rw [Joint, onBody]
      apply Together.bind (each description bodies inside row)
      rintro _ (⟨values, afters, rfl, good, row⟩ | ⟨stop, afters, refusal, rfl, row⟩)
      · exact .done (Or.inl ⟨_, _, rfl, Or.inr ⟨description, values, rfl, good, rfl⟩,
          others afters row⟩)
      · exact .done (Or.inr ⟨stop, _, refusal, rfl, others afters row⟩)

/-! ## Registration -/

/-- All members set up their parts of all structures. -/
theorem exists_setUpAll (objectName : String)
    (rigid : ∀ description ∈ descriptions, description.nodalVelocity = .rigid shape.dim) :
    ∀ part, ∃ structures : Team p → List (RigidStructure shape α),
      (∀ member, setUpAll objectName member.seat part descriptions = .ok (structures member)) ∧
        Columns SharedStructure descriptions structures := by
  induction descriptions with
  | nil =>
      exact fun _ => ⟨fun _ => [], fun _ => rfl, .nil⟩
  | cons description descriptions ih =>
      intro part
      rcases SharedStructure.exists_setUp (p := p) (rigid description List.mem_cons_self) with
        ⟨bodies, made, row⟩
      rcases ih (fun other member => rigid other (List.mem_cons_of_mem description member))
        (part + 1) with ⟨structures, others, columns⟩
      refine ⟨fun member => bodies member :: structures member, ?_, .cons row columns⟩
      intro member
      simp only [setUpAll, made, Except.mapError, bind, Except.bind, others]
      rfl

/-- All members register the structures, or all are refused for one reason. -/
theorem joint_register (settings : Settings α)
    (rigid : ∀ description ∈ descriptions, description.nodalVelocity = .rigid shape.dim) :
    Collective.Joint (fun member : Team p => register settings descriptions member.seat)
      (SharedCoordinator settings descriptions) := by
  simp only [register]
  cases settings.check with
  | error e =>
      exact Collective.joint_throw trivial
  | ok _ =>
      rcases exists_setUpAll (p := p) settings.objectName rigid 0 with ⟨structures, made, columns⟩
      have found : Collective.Joint (fun member : Team p => (ExceptT.mk (pure
          (setUpAll settings.objectName member.seat 0 descriptions)) :
            Collective α (List (RigidStructure shape α)))) (· = structures) :=
        Collective.joint_mk_pure made rfl
      apply Collective.joint_bind found
      rintro _ rfl
      apply Collective.joint_bind (Collective.completes_tell _).joint
      intro _ _
      apply Collective.joint_pure
      exact {
        settings := fun _ => rfl
        seat := fun _ => rfl
        structures := columns
        protocol := fun _ => rfl
        currentForces := Or.inl fun _ => rfl
        newForces := Or.inl fun _ => rfl
        listeners := fun _ => rfl
        initialized := fun _ => rfl }

/-! ## Mass properties -/

theorem sharedWork_updateMass (someone : 0 < p) :
    SharedWork settings descriptions (fun _ : Team p => updateMass) Same := by
  apply sharedWork_get
  intro coordinators shared
  simp only [shared.name, shared.settings]
  refine sharedWork_forEachStructure ?_ coordinators shared
  intro description part bodies inside row
  apply joint_bind joint_get
  rintro _ _ ⟨rfl, rfl⟩
  have mass := joint_collective
    (row.joint_massAt someone row.positions settings.quadratureOrder) row
  apply joint_bind (joint_attempt (same_const settings.objectName) mass)
  rintro masses _ ⟨same, rfl⟩
  apply (joint_set _).weaken
  rintro _ _ rfl
  exact row.withMass same

theorem sharedWork_prepare (someone : 0 < p) :
    SharedWork settings descriptions (fun _ : Team p => prepare) Same := by
  apply sharedWork_get
  intro coordinators shared
  have same : ∀ member, (coordinators member).initialized = (coordinators none).initialized :=
    shared.initialized
  simp only [same]
  split
  · exact sharedWork_pure (fun _ => rfl) coordinators shared
  · refine sharedWork_bind (sharedWork_updateMass someone) (fun _ _ => ?_) coordinators shared
    apply sharedWork_get
    intro coordinators shared
    refine sharedWork_bind (sharedWork_tell _) (fun _ _ => ?_) coordinators shared
    apply (sharedWork_modify fun coordinators shared => ?_).imp fun _ _ _ => rfl
    exact { shared with initialized := same_const true }

/-! ## Opening and closing a step -/

/-- All members put their fields together. -/
theorem completes_assemble (parts : Team p → List (NodalField α)) :
    Collective.Completes (fun member => CompositeField.assemble (parts member)) fun composites =>
      composites = fun member => ⟨parts member⟩ := by
  apply Collective.completes_bind Collective.completes_barrier
  intro _ _
  apply Collective.completes_bind (Collective.completes_tell _)
  intro _ _
  exact Collective.completes_pure rfl

/-- All members take their composite apart. -/
theorem completes_release (composites : Team p → CompositeField α) :
    Collective.Completes (fun member => (composites member).release) fun parts =>
      parts = fun member => (composites member).parts := by
  apply Collective.completes_bind Collective.completes_barrier
  intro _ _
  exact Collective.completes_pure rfl

/-- What is left of the opening of a step once the mass properties are known. -/
theorem sharedWork_allocate (window : StepWindow α) :
    SharedWork settings descriptions (fun _ : Team p => (do
      modify fun c => { c with structures := c.structures.map (·.opened window) }
      let forces := (← get).structures.map (·.constraintForce)
      let currentForces ← Action.collective (CompositeField.assemble forces)
      modify fun c => { c with currentForces := some currentForces }
      let newForces ← Action.collective (CompositeField.assemble forces)
      modify fun c => { c with newForces := some newForces } : Work shape α Unit)) Same := by
  apply sharedWork_bind
  · apply sharedWork_modify
    intro coordinators shared
    exact { shared with structures := shared.structures.map fun _ _ row => row.opened window }
  intro _ _
  apply sharedWork_get
  intro coordinators shared
  have forces : SharedComposite descriptions fun member : Team p =>
      ⟨(coordinators member).structures.map (·.constraintForce)⟩ :=
    shared.structures.map fun _ _ row => row.constraintForce
  apply joint_bind (joint_completes (completes_assemble _))
  rintro _ _ ⟨rfl, rfl⟩
  apply joint_bind (joint_modify _)
  rintro _ _ rfl
  apply joint_bind (joint_completes (completes_assemble _))
  rintro _ _ ⟨rfl, rfl⟩
  apply (joint_modify _).weaken
  rintro _ _ rfl
  have allocated : SharedForces descriptions fun member : Team p =>
      some ⟨(coordinators member).structures.map (·.constraintForce)⟩ :=
    Or.inr ⟨_, fun _ => rfl, forces⟩
  exact ⟨fun _ => rfl, { shared with currentForces := allocated, newForces := allocated }⟩

theorem sharedWork_preprocess (someone : 0 < p) (current new : α) :
    SharedWork settings descriptions (fun _ : Team p => preprocess current new) Same := by
  apply sharedWork_get
  intro coordinators shared
  have same : ∀ member, (coordinators member).initialized = (coordinators none).initialized :=
    shared.initialized
  simp only [same]
  refine sharedWork_bind (sharedWork_prepare someone) (fun _ _ => ?_) coordinators shared
  refine sharedWork_bind (sharedWork_attempting (sharedWork_committing _)) fun windows same => ?_
  rw [same.eq]
  split
  · exact sharedWork_bind (sharedWork_updateMass someone) fun _ _ => sharedWork_allocate _
  · exact sharedWork_allocate _

/-- What is left of the closing of a step once the forces of the current time are gone. -/
theorem sharedWork_commit :
    SharedWork settings descriptions (fun _ : Team p => (do
      let newForces := (← get).newForces
      modify fun c => { c with newForces := none }
      let released ← match newForces with
        | some forces => some <$> Action.collective forces.release
        | none => pure none
      forEachStructure (commit settings.objectName released) : Work shape α Unit)) Same := by
  apply sharedWork_get
  intro coordinators shared
  apply joint_bind (joint_modify _)
  rintro _ _ rfl
  have after : SharedCoordinator settings descriptions fun member =>
      { coordinators member with newForces := none } :=
    { shared with newForces := Or.inl fun _ => rfl }
  rcases shared.newForces with without | ⟨composites, found, composite⟩
  · simp only [without]
    apply joint_bind (joint_pure _)
    rintro _ _ ⟨rfl, rfl⟩
    refine sharedWork_forEachStructure ?_ _ after
    intro description part bodies inside row
    exact row.joint_commit settings.objectName (Or.inl fun _ => rfl)
  · simp only [found]
    apply joint_bind (joint_map (joint_completes (completes_release composites)))
    rintro _ _ ⟨_, rfl, rfl, rfl⟩
    refine sharedWork_forEachStructure ?_ _ after
    intro description part bodies inside row
    rcases composite.exists_row inside with ⟨sources, given, source, -⟩
    exact row.joint_commit settings.objectName (Or.inr ⟨sources, given, source⟩)

theorem sharedWork_postprocess :
    SharedWork settings descriptions (fun _ : Team p => postprocess) Same := by
  apply sharedWork_get
  intro coordinators shared
  simp only [shared.name]
  refine sharedWork_bind (sharedWork_attempting (sharedWork_committing _)) (fun _ _ => ?_)
    coordinators shared
  apply sharedWork_get
  intro coordinators shared
  apply joint_bind (joint_modify _)
  rintro _ _ rfl
  have after : SharedCoordinator settings descriptions fun member =>
      { coordinators member with currentForces := none } :=
    { shared with currentForces := Or.inl fun _ => rfl }
  rcases shared.currentForces with without | ⟨composites, found, -⟩
  · simp only [without]
    exact sharedWork_commit _ after
  · simp only [found]
    apply joint_bind (joint_completes (completes_release composites))
    rintro _ _ ⟨-, rfl⟩
    exact sharedWork_commit _ after

/-! ## Advancing -/

theorem sharedWork_advance (someone : 0 < p) (rule : AdvanceRule) (current new : α) :
    SharedWork settings descriptions (fun _ : Team p => advance rule current new) Same := by
  apply sharedWork_get
  intro coordinators shared
  simp only [shared.name, shared.seat, shared.settings]
  refine sharedWork_bind (sharedWork_checking ?_) (fun _ _ => ?_) coordinators shared
  · intro coordinators shared member
    simp only [checkTimes, shared.settings, shared.protocol member]
  refine sharedWork_bind (sharedWork_attempting (sharedWork_committing _)) fun windows same => ?_
  rw [same.eq]
  cases rule with
  | forwardEuler =>
      apply sharedWork_bind
      · apply sharedWork_forEachStructure
        intro description part bodies inside row
        exact row.joint_predict someone _ _ part _
      · exact fun _ _ => sharedWork_tell _
  | midpoint =>
      apply sharedWork_bind
      · apply sharedWork_forEachStructure
        intro description part bodies inside row
        exact row.joint_update someone part _
      · exact fun _ _ => sharedWork_tell _
  | trapezoidal =>
      exact sharedWork_tell _

end Coordinator

end ImmersedBody
