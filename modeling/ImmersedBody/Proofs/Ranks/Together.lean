import ImmersedBody.Proofs.Ranks.Alone
import ImmersedBody.Proofs.Ranks.Lockstep

/-!
# Work of a team

A team consists of the ranks of a cluster and of one rank that works alone, the
*reference*.  What the members of a team do is given by one function on the team,
so that what is said about the ranks is said about the reference, too.

The tasks of a team are together if all members issue the same sums, apart from
those that refresh ghosts, which the reference does not need.  In exact
arithmetic every sum over the ranks is then the value that the reference puts in.
`Together.lockstep` says what this means for the cluster.

`Collective.Joint` and `Action.Joint` say how the members of a team end: all with
values that belong together, or all for the same reason.  There is one rule for
each way to put work together.
-/

namespace ImmersedBody

variable {α σ τ β γ : Type} {p : Nat}

/-- The ranks of a cluster, and a rank that works alone. -/
abbrev Team (p : Nat) := Option (Fin p)

/-- The place of a member of a team. -/
def Team.seat : Team p → Seat
  | none => .alone
  | some rank => .of rank

/-- All members of a team have the same. -/
def Same (values : Team p → τ) : Prop :=
  ∀ member, values member = values none

theorem Same.eq {values : Team p → τ} (same : Same values) :
    values = fun _ => values none :=
  funext same

theorem same_const (value : τ) : Same fun _ : Team p => value :=
  fun _ => rfl

theorem Same.map {values : Team p → τ} (same : Same values) (f : τ → β) :
    Same fun member => f (values member) :=
  fun member => congrArg f (same member)

theorem Same.pair {values : Team p → τ} {others : Team p → β} (same : Same values)
    (sameOther : Same others) : Same fun member => (values member, others member) :=
  fun member => congrArg₂ Prod.mk (same member) (sameOther member)

namespace Task

theorem quiet_bind (task : Task α β) (f : β → Task α γ) :
    (task.bind f).quiet = task.quiet.bind fun result => (f result).quiet := by
  induction task with
  | done result =>
      rfl
  | tell notice next ih =>
      exact ih
  | reduce tag values next ih =>
      simp [quiet, ih]

theorem alone_quiet (task : Task α β) : task.quiet.alone = task.alone := by
  induction task with
  | done result =>
      rfl
  | tell notice next ih =>
      exact ih
  | reduce tag values next ih =>
      exact ih (.ok values)

theorem quiet_tellAll (notices : List (Notice α)) : (tellAll notices).quiet = .done () := by
  induction notices with
  | nil =>
      rfl
  | cons notice notices ih =>
      exact ih

end Task

section

variable [Zero α] [Add α]

/-- The order in which numbers are added does not matter. -/
structure ExactAddition (α : Type) [Zero α] [Add α] : Prop where
  assoc : ∀ a b c : α, a + b + c = a + (b + c)
  comm : ∀ a b : α, a + b = b + a
  zero_add : ∀ a : α, 0 + a = a

/-- In exact arithmetic the sum over the ranks is the value of the reference. -/
def Adds {n : Nat} (values : Team p → Vector α n) : Prop :=
  ExactAddition α → ∀ total, Totals (fun rank => values (some rank)) total → total = values none

/-- The members of a team issue the same sums, except for the refreshing of ghosts. -/
inductive Together (post : (Team p → β) → Prop) : (Team p → Task α β) → Prop where
  | done {results : Team p → β} (ended : post results) :
      Together post fun member => .done (results member)
  | reduce {n : Nat} {tag : String} {values : Team p → Vector α n}
      {next : Team p → Except CollectiveError (Vector α n) → Task α β}
      (adds : Adds values)
      (goesOn : ∀ total, (ExactAddition α → total = values none) →
        Together post fun member => next member (.ok total)) :
      Together post fun member => .reduce tag (values member) (next member)
  /-- The ranks refresh their ghosts, and the reference stays where it is. -/
  | refresh {n : Nat} {tag : String} {values : Fin p → Vector α n}
      {next : Fin p → Except CollectiveError (Vector α n) → Task α β} {reference : Task α β}
      (goesOn : ∀ total, (ExactAddition α → Totals values total) →
        Together post fun member => member.elim reference fun rank => next rank (.ok total)) :
      Together post fun member =>
        member.elim reference fun rank => .reduce tag (values rank) (next rank)

namespace Together

variable {post : (Team p → β) → Prop} {tasks : Team p → Task α β}

theorem imp {post' : (Team p → β) → Prop} (together : Together post tasks)
    (weaker : ∀ results, post results → post' results) : Together post' tasks := by
  induction together with
  | done ended =>
      exact .done (weaker _ ended)
  | reduce adds goesOn ih =>
      exact .reduce adds ih
  | refresh goesOn ih =>
      exact .refresh ih

theorem bind {post' : (Team p → γ) → Prop} {f : Team p → β → Task α γ}
    (together : Together post tasks)
    (later : ∀ results, post results → Together post' fun member => f member (results member)) :
    Together post' fun member => (tasks member).bind (f member) := by
  induction together with
  | done ended =>
      exact later _ ended
  | reduce adds goesOn ih =>
      exact .reduce adds ih
  | @refresh n tag values next reference goesOn ih =>
      have whole : (fun member : Team p => Task.bind (member.elim reference fun rank =>
          .reduce tag (values rank) (next rank)) (f member)) =
        fun member => member.elim (reference.bind (f none)) fun rank =>
          .reduce tag (values rank) fun outcome => (next rank outcome).bind (f (some rank)) := by
        funext member
        cases member <;> rfl
      rw [whole]
      refine .refresh fun total summed => ?_
      have after : (fun member : Team p => Task.bind (member.elim reference fun rank =>
          next rank (.ok total)) (f member)) =
        fun member => member.elim (reference.bind (f none)) fun rank =>
          (next rank (.ok total)).bind (f (some rank)) := by
        funext member
        cases member <;> rfl
      rw [← after]
      exact ih total summed

/-- The ranks of a team are in lockstep, and in exact arithmetic they end with the reference. -/
theorem lockstep (together : Together post tasks) :
    Lockstep (fun results => ∃ reference, (ExactAddition α → reference = (tasks none).alone) ∧
      post fun member => member.elim reference results) fun rank => tasks (some rank) := by
  induction together with
  | @done results ended =>
      refine .done ⟨results none, fun _ => rfl, ?_⟩
      have whole : (fun member : Team p => member.elim (results none) fun rank =>
          results (some rank)) = results := by
        funext member
        cases member <;> rfl
      rw [whole]
      exact ended
  | @reduce n tag values next adds goesOn ih =>
      refine .reduce fun total summed => ?_
      have counted (additive : ExactAddition α) : total = values none := adds additive total summed
      refine (ih total counted).imp ?_
      rintro results ⟨reference, same, ended⟩
      refine ⟨reference, fun additive => ?_, ended⟩
      rw [same additive, counted additive]
      rfl
  | refresh goesOn ih =>
      refine .reduce fun total summed => ?_
      exact ih total fun _ => summed

end Together

/-! ## Collective work -/

/-- The work failed by itself: nothing was out of bounds, and no collective failed. -/
def Stop.IsRefusal : Stop α → Prop
  | .failed ⟨_, .collective _⟩ => False
  | .failed _ => True
  | .fault _ => False

omit [Zero α] [Add α] in
theorem Stop.IsRefusal.within {stop : Stop α} (refusal : stop.IsRefusal) (objectName : String)
    (what : Attempt) : (stop.within objectName what).IsRefusal := by
  rcases stop with ⟨attempts, cause⟩ | fault
  · cases cause <;> exact refusal
  · exact refusal

namespace Collective

/-- The members of a team end with values that belong together, or all for one reason. -/
def Joint (works : Team p → Collective α β) (post : (Team p → β) → Prop) : Prop :=
  Together
    (fun outcomes => (∃ values : Team p → β, outcomes = (fun member => .ok (values member)) ∧
        post values) ∨
      ∃ stop, stop.IsRefusal ∧ outcomes = fun _ => .error stop)
    fun member => Task.quiet (works member).run

variable {works : Team p → Collective α β} {post : (Team p → β) → Prop}

theorem joint_mk_pure {results : Team p → Except (Stop α) β} {values : Team p → β}
    (found : ∀ member, results member = .ok (values member)) (good : post values) :
    Joint (fun member => ExceptT.mk (pure (results member))) post :=
  .done (Or.inl ⟨values, funext found, good⟩)

theorem joint_pure {values : Team p → β} (good : post values) :
    Joint (fun member => (pure (values member) : Collective α β)) post :=
  .done (Or.inl ⟨values, rfl, good⟩)

theorem joint_throw {stop : Stop α} (refusal : stop.IsRefusal) :
    Joint (fun _ => throw stop) post :=
  .done (Or.inr ⟨stop, refusal, rfl⟩)

theorem joint_bind {f : Team p → β → Collective α γ} {post' : (Team p → γ) → Prop}
    (first : Joint works post)
    (later : ∀ values, post values → Joint (fun member => f member (values member)) post') :
    Joint (fun member => works member >>= f member) post' := by
  show Together _ fun member =>
    Task.quiet (Task.bind (works member).run (ExceptT.bindCont (f member)))
  simp only [Task.quiet_bind]
  apply Together.bind first
  rintro outcomes (⟨values, rfl, good⟩ | ⟨stop, refusal, rfl⟩)
  · exact later values good
  · exact .done (Or.inr ⟨stop, refusal, rfl⟩)

/-- The members of a team end with values that belong together. -/
def Completes (works : Team p → Collective α β) (post : (Team p → β) → Prop) : Prop :=
  Together
    (fun outcomes => ∃ values : Team p → β, outcomes = (fun member => .ok (values member)) ∧
      post values)
    fun member => Task.quiet (works member).run

theorem Completes.joint (completes : Completes works post) : Joint works post :=
  Together.imp completes fun _ => Or.inl

theorem completes_pure {values : Team p → β} (good : post values) :
    Completes (fun member => (pure (values member) : Collective α β)) post :=
  .done ⟨values, rfl, good⟩

theorem completes_bind {f : Team p → β → Collective α γ} {post' : (Team p → γ) → Prop}
    (first : Completes works post)
    (later : ∀ values, post values → Completes (fun member => f member (values member)) post') :
    Completes (fun member => works member >>= f member) post' := by
  show Together _ fun member =>
    Task.quiet (Task.bind (works member).run (ExceptT.bindCont (f member)))
  simp only [Task.quiet_bind]
  apply Together.bind first
  rintro outcomes ⟨values, rfl, good⟩
  exact later values good

/-- All members get the same sum, which in exact arithmetic is the value of the reference. -/
theorem joint_sum {n : Nat} {tag : String} {values : Team p → Vector α n}
    {post : (Team p → Vector α n) → Prop} (adds : Adds values)
    (good : ∀ total, (ExactAddition α → total = values none) → post fun _ => total) :
    Joint (fun member => Collective.sum tag (values member)) post :=
  .reduce adds fun total counted => .done (Or.inl ⟨_, rfl, good total counted⟩)

theorem completes_barrier {tag : String} :
    Completes (fun _ : Team p => (Collective.barrier tag : Collective α Unit)) fun _ => True := by
  have adds : Adds fun _ : Team p => (#v[] : Vector α 0) :=
    fun _ _ _ => Vector.ext fun i below => absurd below i.not_lt_zero
  exact .reduce adds fun _ _ => .done ⟨_, rfl, trivial⟩

theorem completes_tell (notices : Team p → Notice α) :
    Completes (fun member => ExceptT.lift (Task.tell (notices member) (.done ()))) fun _ => True :=
  .done ⟨_, rfl, trivial⟩

end Collective

/-! ## Actions -/

namespace Action

/--
The members of a team end with values and in states that belong together, or
all of them stop for one reason in states that belong together.
-/
def Joint (actions : Team p → Action α σ β) (states : Team p → σ)
    (post : (Team p → β) → (Team p → σ) → Prop) (stopped : (Team p → σ) → Prop) : Prop :=
  Together
    (fun results => (∃ (values : Team p → β) (afters : Team p → σ),
        results = (fun member => (.ok (values member), afters member)) ∧ post values afters) ∨
      ∃ (stop : Stop α) (afters : Team p → σ), stop.IsRefusal ∧
        results = (fun member => (.error stop, afters member)) ∧ stopped afters)
    fun member => ((actions member).on (states member)).quiet

variable {actions : Team p → Action α σ β} {states : Team p → σ}
  {post : (Team p → β) → (Team p → σ) → Prop} {stopped : (Team p → σ) → Prop}

theorem Joint.imp {post' : (Team p → β) → (Team p → σ) → Prop} {stopped' : (Team p → σ) → Prop}
    (joint : Joint actions states post stopped)
    (good : ∀ values afters, post values afters → post' values afters)
    (bad : ∀ afters, stopped afters → stopped' afters) :
    Joint actions states post' stopped' := by
  apply Together.imp joint
  rintro results (⟨values, afters, rfl, ended⟩ | ⟨stop, afters, refusal, rfl, ended⟩)
  · exact Or.inl ⟨values, afters, rfl, good values afters ended⟩
  · exact Or.inr ⟨stop, afters, refusal, rfl, bad afters ended⟩

/-- Members that stop are where they were in any case. -/
theorem Joint.weaken {post' : (Team p → β) → (Team p → σ) → Prop}
    (joint : Joint actions states post stopped)
    (good : ∀ values afters, post values afters → post' values afters) :
    Joint actions states post' stopped :=
  joint.imp good fun _ bad => bad

theorem joint_pure (values : Team p → β) :
    Joint (fun member => (pure (values member) : Action α σ β)) states
      (fun found afters => values = found ∧ states = afters) stopped :=
  .done (Or.inl ⟨values, states, rfl, rfl, rfl⟩)

theorem joint_refuse {cause : Cause α} (refusal : (Stop.because cause).IsRefusal)
    (bad : stopped states) :
    Joint (fun _ => (Action.refuse cause : Action α σ β)) states post stopped :=
  .done (Or.inr ⟨_, states, refusal, rfl, bad⟩)

theorem joint_get :
    Joint (fun _ => (get : Action α σ σ)) states
      (fun found afters => states = found ∧ states = afters) stopped :=
  .done (Or.inl ⟨states, states, rfl, rfl, rfl⟩)

theorem joint_set (next : Team p → σ) :
    Joint (fun member => (set (next member) : Action α σ Unit)) states
      (fun _ afters => afters = next) stopped :=
  .done (Or.inl ⟨_, next, rfl, rfl⟩)

theorem joint_modify (f : Team p → σ → σ) :
    Joint (fun member => (modify (f member) : Action α σ Unit)) states
      (fun _ afters => afters = fun member => f member (states member)) stopped :=
  .done (Or.inl ⟨_, _, rfl, rfl⟩)

/-- What every member finds from its state alone. -/
theorem joint_of_ok {f : Team p → σ → Except (Stop α) β} {values : Team p → β}
    (found : ∀ member, f member (states member) = .ok (values member)) :
    Joint (fun member => Action.of fun state => .done (f member state, state)) states
      (fun found afters => values = found ∧ states = afters) stopped := by
  apply Together.done
  left
  refine ⟨values, states, ?_, rfl, rfl⟩
  funext member
  rw [found]

theorem joint_of_error {f : Team p → σ → Except (Stop α) β} {stop : Stop α}
    (refusal : stop.IsRefusal) (found : ∀ member, f member (states member) = .error stop)
    (bad : stopped states) :
    Joint (fun member => Action.of fun state => .done (f member state, state)) states post
      stopped := by
  apply Together.done
  right
  refine ⟨stop, states, refusal, ?_, bad⟩
  funext member
  rw [found]

theorem joint_tell (notices : Team p → List (Notice α)) :
    Joint (fun member => (Action.tell (notices member) : Action α σ Unit)) states
      (fun _ afters => states = afters) stopped := by
  show Together _ fun member => Task.quiet ((Task.tellAll (notices member)).bind fun _ =>
    .done ((.ok () : Except (Stop α) Unit), states member))
  simp only [Task.quiet_bind, Task.quiet_tellAll]
  exact .done (Or.inl ⟨_, states, rfl, rfl⟩)

/-- A check that says the same to all members. -/
theorem joint_require {results : Team p → Except (Violation α) β} (same : Same results)
    (bad : stopped states) :
    Joint (fun member => (Action.require (results member) : Action α σ β)) states
      (fun found afters => ∃ value, results none = .ok value ∧ ((fun _ => value) = found) ∧
        states = afters) stopped := by
  rw [same.eq]
  cases checked : results none with
  | ok value =>
      exact .done (Or.inl ⟨_, states, rfl, value, rfl, rfl, rfl⟩)
  | error violation =>
      exact .done (Or.inr ⟨.because (.violation violation), states, trivial, rfl, bad⟩)

theorem joint_bind {f : Team p → β → Action α σ γ}
    {post' : (Team p → γ) → (Team p → σ) → Prop} (first : Joint actions states post stopped)
    (later : ∀ values afters, post values afters →
      Joint (fun member => f member (values member)) afters post' stopped) :
    Joint (fun member => actions member >>= f member) states post' stopped := by
  show Together _ fun member => Task.quiet (Task.bind ((actions member).on (states member))
    fun outcome => (ExceptT.bindCont (f member) outcome.1).run outcome.2)
  simp only [Task.quiet_bind]
  apply Together.bind first
  rintro results (⟨values, afters, rfl, good⟩ | ⟨stop, afters, refusal, rfl, bad⟩)
  · exact later values afters good
  · exact .done (Or.inr ⟨stop, afters, refusal, rfl, bad⟩)

theorem joint_map {f : β → γ} (joint : Joint actions states post stopped) :
    Joint (fun member => f <$> actions member) states
      (fun found afters => ∃ values, (fun member => f (values member)) = found ∧
        post values afters) stopped :=
  joint_bind joint fun values afters good => .done (Or.inl ⟨_, afters, rfl, values, rfl, good⟩)

theorem joint_collective {works : Team p → Collective α β} {good : (Team p → β) → Prop}
    (joint : Collective.Joint works good) (bad : stopped states) :
    Joint (fun member => Action.collective (works member)) states
      (fun values afters => good values ∧ states = afters) stopped := by
  show Together _ fun member => Task.quiet (Task.bind (works member).run
    fun outcome => .done (outcome, states member))
  simp only [Task.quiet_bind]
  apply Together.bind joint
  rintro outcomes (⟨values, rfl, found⟩ | ⟨stop, refusal, rfl⟩)
  · exact .done (Or.inl ⟨values, states, rfl, found, rfl⟩)
  · exact .done (Or.inr ⟨stop, states, refusal, rfl, bad⟩)

/-- Work that completes does not stop the members. -/
theorem joint_completes {works : Team p → Collective α β} {good : (Team p → β) → Prop}
    (completes : Collective.Completes works good) :
    Joint (fun member => Action.collective (works member)) states
      (fun values afters => good values ∧ states = afters) stopped := by
  show Together _ fun member => Task.quiet (Task.bind (works member).run
    fun outcome => .done (outcome, states member))
  simp only [Task.quiet_bind]
  apply Together.bind completes
  rintro outcomes ⟨values, rfl, found⟩
  exact .done (Or.inl ⟨values, states, rfl, found, rfl⟩)

theorem joint_attempt {objectNames : Team p → String} {what : Attempt}
    (sameName : Same objectNames) (joint : Joint actions states post stopped) :
    Joint (fun member => (actions member).attempt (objectNames member) what) states post
      stopped := by
  rw [sameName.eq]
  show Together _ fun member => Task.quiet (Task.bind ((actions member).on (states member))
    fun result =>
      .done (result.1.mapError (·.within (objectNames none) what), result.2))
  simp only [Task.quiet_bind]
  apply Together.bind joint
  rintro results (⟨values, afters, rfl, good⟩ | ⟨stop, afters, refusal, rfl, bad⟩)
  · exact .done (Or.inl ⟨values, afters, rfl, good⟩)
  · exact .done (Or.inr ⟨_, afters, refusal.within _ _, rfl, bad⟩)

/-- Work on parts of the states that succeeds. -/
theorem joint_part {get : Team p → σ → τ} {put : Team p → τ → σ → σ}
    {works : Team p → EStateM (Stop α) τ β} {values : Team p → β} {parts : Team p → τ}
    (worked : ∀ member, works member (get member (states member)) =
      .ok (values member) (parts member)) :
    Joint (fun member => Action.part (get member) (put member) (works member)) states
      (fun found afters => values = found ∧
        afters = fun member => put member (parts member) (states member)) stopped := by
  have each : ∀ member, (Action.part (get member) (put member) (works member)).on (states member) =
      .done (.ok (values member), put member (parts member) (states member)) := by
    intro member
    simp [Action.part, Action.on, Action.of, ExceptT.mk, ExceptT.run, worked]
  simp only [Joint, each]
  exact .done (Or.inl ⟨values, _, rfl, rfl, rfl⟩)

/-- Work on parts of the states that is refused. -/
theorem joint_part_of_error {get : Team p → σ → τ} {put : Team p → τ → σ → σ}
    {works : Team p → EStateM (Stop α) τ β} {stop : Stop α} {parts : Team p → τ}
    (refusal : stop.IsRefusal)
    (worked : ∀ member, works member (get member (states member)) = .error stop (parts member))
    (bad : stopped fun member => put member (parts member) (states member)) :
    Joint (fun member => Action.part (get member) (put member) (works member)) states
      (fun _ _ => False) stopped := by
  have each : ∀ member, (Action.part (get member) (put member) (works member)).on (states member) =
      .done (.error stop, put member (parts member) (states member)) := by
    intro member
    simp [Action.part, Action.on, Action.of, ExceptT.mk, ExceptT.run, worked]
  simp only [Joint, each]
  exact .done (Or.inr ⟨stop, _, refusal, rfl, bad⟩)

/-- Work on something that the states hold, which is put back however the work ends. -/
theorem joint_within {inner : Team p → Action α τ β} {parts : Team p → τ}
    (put : Team p → τ → σ)
    (each : ∀ member, (actions member).on (states member) =
      ((inner member).on (parts member)).bind fun result =>
        .done (result.1, put member result.2))
    (joint : Joint inner parts
      (fun values afters => post values fun member => put member (afters member))
      fun afters => stopped fun member => put member (afters member)) :
    Joint actions states post stopped := by
  simp only [Joint, each, Task.quiet_bind]
  apply Together.bind joint
  rintro results (⟨values, afters, rfl, good⟩ | ⟨stop, afters, refusal, rfl, bad⟩)
  · exact .done (Or.inl ⟨values, _, rfl, good⟩)
  · exact .done (Or.inr ⟨stop, _, refusal, rfl, bad⟩)

/-- Work on the first of two states. -/
theorem joint_first {post : (Team p → β) → (Team p → σ × τ) → Prop}
    {stopped : (Team p → σ × τ) → Prop} (others : Team p → τ)
    (joint : Joint actions states
      (fun values afters => post values fun member => (afters member, others member))
      fun afters => stopped fun member => (afters member, others member)) :
    Joint (fun member => Action.first (actions member))
      (fun member => (states member, others member)) post stopped := by
  exact joint_within (fun member after => (after, others member)) (fun _ => rfl) joint

end Action

end

end ImmersedBody
