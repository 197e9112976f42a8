import ImmersedBody.Proofs.Ranks.Alone
import ImmersedBody.Proofs.Ranks.Schedule

/-!
# All results that work may have

What a rank is told by a collective depends on the other ranks.  `Task.MayReturn` says
which results a task may have when every collective may have any outcome.  On a
cluster no rank departs with another result, however the ranks take turns.

What holds in any case is stated with `Action.Ensures`, the counterpart of
`Action.Ends` for any number of ranks, again with one rewriting rule for each way to
put actions together.
-/

namespace ImmersedBody

variable {α σ τ ι β γ : Type}

/-! ## Tasks -/

namespace Task

/-- The results that a task may have, whatever the outcomes of its collectives. -/
inductive MayReturn : Task α β → β → Prop where
  | done (result : β) : MayReturn (.done result) result
  | tell {next : Task α β} {result : β} (notice : Notice α) (later : MayReturn next result) :
      MayReturn (.tell notice next) result
  | reduce {n : Nat} {next : Except CollectiveError (Vector α n) → Task α β} {result : β}
      (tag : String) (values : Vector α n) (outcome : Except CollectiveError (Vector α n))
      (later : MayReturn (next outcome) result) :
      MayReturn (.reduce tag values next) result

/-- All results that a task may have satisfy a property. -/
def Always (property : β → Prop) : Task α β → Prop
  | .done result => property result
  | .tell _ next => next.Always property
  | .reduce _ _ next => ∀ outcome, (next outcome).Always property

variable {task : Task α β} {property : β → Prop} {result : β}

theorem Always.of_mayReturn (may : task.MayReturn result) (always : task.Always property) :
    property result := by
  induction may with
  | done result =>
      exact always
  | tell notice later ih =>
      exact ih always
  | reduce tag values outcome later ih =>
      exact ih (always outcome)

theorem Always.imp {property' : β → Prop} (always : task.Always property)
    (implies : ∀ result, property result → property' result) : task.Always property' := by
  induction task with
  | done result =>
      exact implies result always
  | tell notice next ih =>
      exact ih always
  | reduce tag values next ih =>
      exact fun outcome => ih outcome (always outcome)

theorem always_congr {property' : β → Prop} (same : ∀ result, property result ↔ property' result) :
    task.Always property ↔ task.Always property' :=
  ⟨fun always => always.imp fun result => (same result).mp,
    fun always => always.imp fun result => (same result).mpr⟩

theorem always_of_forall (all : ∀ result, property result) : task.Always property := by
  induction task with
  | done result =>
      exact all result
  | tell notice next ih =>
      exact ih
  | reduce tag values next ih =>
      exact ih

@[simp]
theorem always_bind {f : β → Task α γ} {property : γ → Prop} :
    (task.bind f).Always property ↔ task.Always fun result => (f result).Always property := by
  induction task with
  | done result =>
      rfl
  | tell notice next ih =>
      exact ih
  | reduce tag values next ih =>
      exact forall_congr' ih

theorem always_tellAll {notices : List (Notice α)} {property : Unit → Prop} :
    (tellAll notices).Always property ↔ property () := by
  induction notices with
  | nil =>
      rfl
  | cons notice notices ih =>
      exact ih

/-- The result on the only rank is one of those that a task may have. -/
theorem mayReturn_alone (task : Task α β) : task.MayReturn task.alone := by
  induction task with
  | done result =>
      exact .done result
  | tell notice next ih =>
      exact .tell notice ih
  | reduce tag values next ih =>
      exact .reduce tag values (.ok values) (ih _)

end Task

/-! ## Clusters -/

/-- A rank that has less work left has no other results before it. -/
theorem Participant.Less.mayReturn {before after : Participant α β} {result : β}
    (less : after.Less before) (may : after.task.MayReturn result) :
    before.task.MayReturn result := by
  rw [Participant.Less] at less
  generalize after.task = left at *
  generalize before.task = task at *
  rcases less with ⟨_, _, moved⟩ | ⟨_, _⟩
  · cases moved with
    | tell notice =>
        exact .tell notice may
    | reduce tag values next outcome =>
        exact .reduce tag values outcome may
  · exact may

/-- A step leaves the other ranks as they are, and one rank with less work. -/
theorem Cluster.exists_less_of_move [Zero α] [Add α] {fails : β → Bool} {rank : Nat}
    {cluster after : Cluster α β} {events : List (CollectiveEvent α)}
    (moved : cluster.move fails rank = some (events, after)) :
    ∃ here left : Participant α β, cluster.ranks[rank]? = some here ∧ left.Less here ∧
      after.ranks = cluster.ranks.set rank left := by
  rw [move] at moved
  cases found : cluster.ranks[rank]? with
  | none =>
      simp [found] at moved
  | some here =>
      cases stepped : here.step fails cluster.ranks.length rank cluster.round with
      | none =>
          simp [found, stepped] at moved
      | some outcome =>
          simp only [found, stepped, Option.some.injEq, Prod.mk.injEq] at moved
          rcases moved with ⟨-, rfl⟩
          exact ⟨here, outcome.2.val, rfl, outcome.2.property, rfl⟩

/-- What is left to a rank leads to no other results than a task. -/
def Cluster.Narrows (rank : Nat) (task : Task α β) (cluster : Cluster α β) : Prop :=
  ∀ participant : Participant α β, cluster.ranks[rank]? = some participant →
    ∀ result, participant.task.MayReturn result → task.MayReturn result

theorem Cluster.Narrows.move [Zero α] [Add α] {fails : β → Bool} {rank mover : Nat}
    {task : Task α β} {cluster after : Cluster α β} {events : List (CollectiveEvent α)}
    (narrows : cluster.Narrows rank task)
    (moved : cluster.move fails mover = some (events, after)) : after.Narrows rank task := by
  intro participant found result may
  rcases exists_less_of_move moved with ⟨here, left, stood, less, ranks_eq⟩
  rw [ranks_eq] at found
  by_cases same : mover = rank
  · subst same
    rw [List.getElem?_set_self (List.getElem?_eq_some_iff.mp stood).1, Option.some.injEq] at found
    subst found
    exact narrows here stood result (less.mayReturn may)
  · rw [List.getElem?_set_ne same] at found
    exact narrows participant found result may

/-- However the ranks of a cluster take turns, each departs with a result that its task may have. -/
theorem Cluster.mayReturn_of_departed [Zero α] [Add α] {fails : β → Bool} {size rank : Nat}
    {task : Seat → Task α β} {schedule : List Nat} {result : β} (inside : rank < size)
    (departed : (history fails size task schedule).2.ranks[rank]? = some (.departed result)) :
    (task ⟨rank, size, inside⟩).MayReturn result := by
  have narrows : (history fails size task schedule).2.Narrows rank (task ⟨rank, size, inside⟩) := by
    apply @history_induction _ _ _ _ fails size task fun _ cluster =>
      cluster.Narrows rank (task ⟨rank, size, inside⟩)
    · intro participant found result may
      rw [start, List.getElem?_map, List.getElem?_eq_getElem (by simpa using inside)] at found
      simp only [List.getElem_finRange, Option.map_some, Option.some.injEq] at found
      subst found
      exact may
    · exact fun _ _ _ _ _ narrows moved => narrows.move moved
  exact narrows _ departed result (.done result)

/-! ## Work that may stop -/

namespace Collective

/-- How collective work ends in any case: with a value, or because it stops. -/
def Always (work : Collective α β) (post : β → Prop) (stopped : Prop) : Prop :=
  Task.Always (α := α) (fun
    | .ok value => post value
    | .error _ => stopped) work.run

variable {work : Collective α β} {post : β → Prop} {stopped : Prop}

theorem always_of_forall (good : ∀ value, post value) (bad : stopped) : work.Always post stopped :=
  Task.always_of_forall fun
    | .ok value => good value
    | .error _ => bad

theorem Always.imp {post' : β → Prop} {stopped' : Prop} (always : work.Always post stopped)
    (good : ∀ value, post value → post' value) (bad : stopped → stopped') :
    work.Always post' stopped' :=
  Task.Always.imp always fun
    | .ok value => good value
    | .error _ => bad

@[simp]
theorem always_bind {f : β → Collective α γ} {post : γ → Prop} :
    (work >>= f).Always post stopped ↔
      work.Always (fun value => (f value).Always post stopped) stopped := by
  show (Task.bind work.run (ExceptT.bindCont f)).Always _ ↔ _
  rw [Task.always_bind, Always]
  apply Task.always_congr
  rintro (_ | _) <;> rfl

end Collective

namespace Action

/-- How an action ends in any case: with a value, or because it stops. -/
def Ensures (action : Action α σ β) (state : σ) (post : β → σ → Prop) (stopped : σ → Prop) : Prop :=
  (action.on state).Always fun
    | (.ok value, after) => post value after
    | (.error _, after) => stopped after

variable {action : Action α σ β} {state : σ} {post : β → σ → Prop} {stopped : σ → Prop}

theorem Ensures.imp {post' : β → σ → Prop} {stopped' : σ → Prop}
    (ensures : action.Ensures state post stopped)
    (good : ∀ value after, post value after → post' value after)
    (bad : ∀ after, stopped after → stopped' after) : action.Ensures state post' stopped' :=
  Task.Always.imp ensures fun
    | (.ok value, after) => good value after
    | (.error _, after) => bad after

/-- What an action ensures holds on the only rank in particular. -/
theorem Ensures.ends (ensures : action.Ensures state post stopped) :
    action.Ends state post stopped := by
  have result := Task.Always.of_mayReturn (Task.mayReturn_alone _) ensures
  rw [Ends, Action.alone]
  generalize (action.on state).alone = ended at *
  rcases ended with ⟨_ | value, after⟩ <;> exact result

@[simp]
theorem ensures_pure {value : β} :
    (pure value : Action α σ β).Ensures state post stopped ↔ post value state :=
  Iff.rfl

@[simp]
theorem ensures_refuse {cause : Cause α} :
    (Action.refuse cause : Action α σ β).Ensures state post stopped ↔ stopped state :=
  Iff.rfl

@[simp]
theorem ensures_get {post : σ → σ → Prop} :
    (get : Action α σ σ).Ensures state post stopped ↔ post state state :=
  Iff.rfl

@[simp]
theorem ensures_set {next : σ} {post : Unit → σ → Prop} :
    (set next : Action α σ Unit).Ensures state post stopped ↔ post () next :=
  Iff.rfl

@[simp]
theorem ensures_modify {f : σ → σ} {post : Unit → σ → Prop} :
    (modify f : Action α σ Unit).Ensures state post stopped ↔ post () (f state) :=
  Iff.rfl

@[simp]
theorem ensures_bind {f : β → Action α σ γ} {post : γ → σ → Prop} :
    (action >>= f).Ensures state post stopped ↔
      action.Ensures state (fun value after => (f value).Ensures after post stopped) stopped := by
  show ((action.on state).bind fun outcome =>
    (ExceptT.bindCont f outcome.1).run outcome.2).Always _ ↔ _
  rw [Task.always_bind, Ensures]
  apply Task.always_congr
  rintro ⟨_ | _, _⟩ <;> rfl

@[simp]
theorem ensures_map {f : β → γ} {post : γ → σ → Prop} :
    (f <$> action).Ensures state post stopped ↔
      action.Ensures state (fun value after => post (f value) after) stopped :=
  ensures_bind

theorem ensures_of {f : σ → Task α (Except (Stop α) β × σ)} :
    (Action.of f).Ensures state post stopped ↔ (f state).Always fun
      | (.ok value, after) => post value after
      | (.error _, after) => stopped after :=
  Iff.rfl

@[simp]
theorem ensures_require {result : Except (Violation α) β} :
    (Action.require result : Action α σ β).Ensures state post stopped ↔
      match result with
      | .ok value => post value state
      | .error _ => stopped state := by
  cases result <;> rfl

/-- A result that is known at once. -/
@[simp]
theorem ensures_known {result : Except (Stop α) β} :
    (Action.of fun state => .done (result, state) : Action α σ β).Ensures state post stopped ↔
      match result with
      | .ok value => post value state
      | .error _ => stopped state := by
  cases result <;> rfl

@[simp]
theorem ensures_tell {notices : List (Notice α)} {post : Unit → σ → Prop} :
    (Action.tell notices : Action α σ Unit).Ensures state post stopped ↔ post () state := by
  rw [Action.tell, ensures_of, Task.always_bind, Task.always_tellAll]
  rfl

@[simp]
theorem ensures_collective {work : Collective α β} :
    (Action.collective work : Action α σ β).Ensures state post stopped ↔
      work.Always (fun value => post value state) (stopped state) := by
  rw [Action.collective, ensures_of, Task.always_bind, Collective.Always]
  apply Task.always_congr
  rintro (_ | _) <;> rfl

@[simp]
theorem ensures_attempt {objectName : String} {what : Attempt} :
    (action.attempt objectName what).Ensures state post stopped ↔
      action.Ensures state post stopped := by
  rw [Action.attempt, ensures_of, Task.always_bind, Ensures]
  apply Task.always_congr
  rintro ⟨_ | _, _⟩ <;> rfl

@[simp]
theorem ensures_part {get : σ → τ} {put : τ → σ → σ} {work : EStateM (Stop α) τ β} :
    (Action.part get put work).Ensures state post stopped ↔
      match work (get state) with
      | .ok value after => post value (put after state)
      | .error _ after => stopped (put after state) := by
  rw [Action.part, ensures_of]
  cases work (get state) <;> rfl

@[simp]
theorem ensures_first {other : τ} {post : β → σ × τ → Prop} {stopped : σ × τ → Prop} :
    (Action.first action : Action α (σ × τ) β).Ensures (state, other) post stopped ↔
      action.Ensures state (fun value after => post value (after, other))
        fun after => stopped (after, other) := by
  rw [Action.first, ensures_of, Task.always_bind, Ensures]
  apply Task.always_congr
  rintro ⟨_ | _, _⟩ <;> rfl

@[simp]
theorem ensures_ite {condition : Prop} [Decidable condition] {other : Action α σ β} :
    (if condition then action else other).Ensures state post stopped ↔
      if condition then action.Ensures state post stopped
      else other.Ensures state post stopped := by
  split <;> rfl

/--
Work on each member of a list whose members are labelled, given what it does to one of them.
Where it stops, some members are done, and the rest is as it was.
-/
theorem always_onEach {action : Nat → Action α (τ × σ) Unit} {before done halted : ι → τ → Prop}
    {labels : List ι}
    (each : ∀ i label member state, before label member →
      (action i).Ensures (member, state) (fun _ after => done label after.1)
        fun after => halted label after.1) :
    ∀ {number : Nat} {members : List τ} (state : σ), List.Forall₂ before labels members →
      (onEach action number members state).Always fun
        | (.ok _, members', _) => List.Forall₂ done labels members'
        | (.error _, members', _) => List.Forall₂ (fun label member =>
            done label member ∨ halted label member ∨ before label member) labels members' := by
  induction labels with
  | nil =>
      rintro number _ state ⟨⟩
      exact .nil
  | cons label labels ih =>
      rintro number _ state (_ | ⟨here, rest⟩)
      have untouched := rest.imp fun label member (kept : before label member) =>
        (Or.inr (Or.inr kept) : done label member ∨ halted label member ∨ before label member)
      rw [onEach, Task.always_bind]
      apply Task.Always.imp (each number label _ state here)
      rintro ⟨stop | _, after, state'⟩ first
      · exact .cons (Or.inr (Or.inl first)) untouched
      · simp only [Task.always_bind]
        apply Task.Always.imp (ih state' rest)
        rintro ⟨stop | _, rest', state''⟩ later
        · exact .cons (Or.inl first) later
        · exact .cons first later

/-! ## What is upheld -/

/-- The action upholds a property of its state in any case. -/
def Upholds (kept : σ → Prop) (action : Action α σ β) : Prop :=
  ∀ state, kept state → action.Ensures state (fun _ after => kept after) kept

variable {kept : σ → Prop}

theorem upholds_bind {f : β → Action α σ γ} (first : Upholds kept action)
    (later : ∀ value, Upholds kept (f value)) : Upholds kept (action >>= f) := by
  intro state before
  rw [ensures_bind]
  exact (first state before).imp later fun _ stopped => stopped

/-- Work that goes on after a first part that upholds a property. -/
theorem Upholds.ensures_bind {f : β → Action α σ γ} {post : γ → σ → Prop} {stopped : σ → Prop}
    (first : Upholds kept action) (before : kept state)
    (later : ∀ value after, kept after → (f value).Ensures after post stopped)
    (stops : ∀ after, kept after → stopped after) : (action >>= f).Ensures state post stopped := by
  rw [Action.ensures_bind]
  exact (first state before).imp later stops

/-- What has been looked at has the property. -/
theorem upholds_get_bind {f : σ → Action α σ β}
    (later : ∀ seen, kept seen → Upholds kept (f seen)) : Upholds kept (get >>= f) := by
  intro state before
  rw [ensures_bind, ensures_get]
  exact later state before state before

theorem upholds_pure (value : β) : Upholds kept (pure value : Action α σ β) :=
  fun _ before => before

theorem upholds_refuse (cause : Cause α) : Upholds kept (Action.refuse cause : Action α σ β) :=
  fun _ before => before

theorem upholds_set {next : σ} (after : kept next) : Upholds kept (set next : Action α σ Unit) :=
  fun _ _ => after

theorem upholds_modify {change : σ → σ} (changes : ∀ state, kept state → kept (change state)) :
    Upholds kept (modify change : Action α σ Unit) :=
  changes

theorem upholds_known (result : Except (Stop α) β) :
    Upholds kept (Action.of fun state => .done (result, state) : Action α σ β) := by
  intro state before
  rw [ensures_known]
  cases result <;> exact before

theorem upholds_tell (notices : List (Notice α)) :
    Upholds kept (Action.tell notices : Action α σ Unit) := by
  intro state before
  rw [ensures_tell]
  exact before

theorem upholds_collective (work : Collective α β) :
    Upholds kept (Action.collective work : Action α σ β) := by
  intro state before
  rw [ensures_collective]
  exact Collective.always_of_forall (fun _ => before) before

theorem upholds_attempt {objectName : String} {what : Attempt} (upholds : Upholds kept action) :
    Upholds kept (action.attempt objectName what) := by
  intro state before
  rw [ensures_attempt]
  exact upholds state before

theorem upholds_part {get : σ → τ} {put : τ → σ → σ} {work : EStateM (Stop α) τ β}
    (changes : ∀ part state, kept state → kept (put part state)) :
    Upholds kept (Action.part get put work) := by
  intro state before
  rw [ensures_part]
  cases work (get state) <;> exact changes _ _ before

/-- An action on the first of two states. -/
theorem upholds_first (upholds : Upholds kept action) :
    Upholds (fun state : σ × τ => kept state.1) (Action.first action) := by
  rintro ⟨state, other⟩ before
  rw [ensures_first]
  exact upholds state before

end Action

end ImmersedBody
