import ImmersedBody.Proofs.Ranks.Alone

/-!
# Why work stops on the only rank

`Action.Ends` says in which states an action can end.  `Action.Yields` also says for
which reasons it stops, again with one rewriting rule for each way to put actions
together.

The reasons that callers have to reckon with are `Stop.IsForeseen`.  All others would
be mistakes inside of the library.
-/

namespace ImmersedBody

variable {α σ τ ι β γ : Type}

/-! ## Reasons -/

/--
A cause that callers have to reckon with: what they asked for is refused as it stands, or a field
that they passed has another layout, or the cells of a structure have no volume.
-/
def Cause.IsForeseen : Cause α → Prop
  | violation _ | field .incompatibleLayouts | nonPositiveVolume _ | restart _
  | velocityFixed _ _ | restoreDuringStep _ => True
  | _ => False

namespace Stop

/-- A failure with a foreseen cause.  A fault is never foreseen. -/
def IsForeseen : Stop α → Prop
  | failed failure => failure.cause.IsForeseen
  | fault _ => False

/-- The cells of a structure have no volume. -/
def IsWeightless : Stop α → Prop
  | failed ⟨_, .nonPositiveVolume _⟩ => True
  | _ => False

@[simp]
theorem isForeseen_within {stop : Stop α} {objectName : String} {what : Attempt} :
    (stop.within objectName what).IsForeseen ↔ stop.IsForeseen := by
  cases stop <;> rfl

@[simp]
theorem isWeightless_within {stop : Stop α} {objectName : String} {what : Attempt} :
    (stop.within objectName what).IsWeightless ↔ stop.IsWeightless := by
  rcases stop with ⟨attempts, cause⟩ | fault
  · cases cause <;> rfl
  · rfl

theorem IsWeightless.isForeseen {stop : Stop α} (weightless : stop.IsWeightless) :
    stop.IsForeseen := by
  rcases stop with ⟨attempts, cause⟩ | fault
  · cases cause <;> trivial
  · cases weightless

end Stop

/-! ## Rules -/

namespace Action

/-- How an action ends on the only rank: with a value, or because it stops for some reason. -/
def Yields (action : Action α σ β) (state : σ) (post : β → σ → Prop)
    (stopped : Stop α → σ → Prop) : Prop :=
  match action.alone state with
  | (.ok value, after) => post value after
  | (.error stop, after) => stopped stop after

variable {action : Action α σ β} {state : σ} {post : β → σ → Prop} {stopped : Stop α → σ → Prop}

theorem Yields.imp {post' : β → σ → Prop} {stopped' : Stop α → σ → Prop}
    (yields : action.Yields state post stopped)
    (good : ∀ value after, post value after → post' value after)
    (bad : ∀ stop after, stopped stop after → stopped' stop after) :
    action.Yields state post' stopped' := by
  rw [Yields] at *
  generalize action.alone state = result at *
  rcases result with ⟨stop | value, after⟩
  · exact bad stop after yields
  · exact good value after yields

@[simp]
theorem yields_pure {value : β} :
    (pure value : Action α σ β).Yields state post stopped ↔ post value state :=
  Iff.rfl

@[simp]
theorem yields_refuse {cause : Cause α} :
    (Action.refuse cause : Action α σ β).Yields state post stopped ↔
      stopped (.because cause) state :=
  Iff.rfl

@[simp]
theorem yields_get {post : σ → σ → Prop} :
    (get : Action α σ σ).Yields state post stopped ↔ post state state :=
  Iff.rfl

@[simp]
theorem yields_set {next : σ} {post : Unit → σ → Prop} :
    (set next : Action α σ Unit).Yields state post stopped ↔ post () next :=
  Iff.rfl

@[simp]
theorem yields_modify {f : σ → σ} {post : Unit → σ → Prop} :
    (modify f : Action α σ Unit).Yields state post stopped ↔ post () (f state) :=
  Iff.rfl

@[simp]
theorem yields_bind {f : β → Action α σ γ} {post : γ → σ → Prop} :
    (action >>= f).Yields state post stopped ↔
      action.Yields state (fun value after => (f value).Yields after post stopped) stopped := by
  rw [Yields, Yields, alone_bind]
  rcases action.alone state with ⟨_ | value, after⟩ <;> rfl

@[simp]
theorem yields_map {f : β → γ} {post : γ → σ → Prop} :
    (f <$> action).Yields state post stopped ↔
      action.Yields state (fun value after => post (f value) after) stopped :=
  yields_bind

theorem yields_of {f : σ → Task α (Except (Stop α) β × σ)} :
    (Action.of f).Yields state post stopped ↔
      match (f state).alone with
      | (.ok value, after) => post value after
      | (.error stop, after) => stopped stop after :=
  Iff.rfl

@[simp]
theorem yields_require {result : Except (Violation α) β} :
    (Action.require result : Action α σ β).Yields state post stopped ↔
      match result with
      | .ok value => post value state
      | .error violation => stopped (.because (.violation violation)) state := by
  cases result <;> rfl

@[simp]
theorem yields_tell {notices : List (Notice α)} {post : Unit → σ → Prop} :
    (Action.tell notices : Action α σ Unit).Yields state post stopped ↔ post () state := by
  rw [Action.tell, yields_of, Task.alone_bind]
  rfl

@[simp]
theorem yields_collective {work : Collective α β} :
    (Action.collective work : Action α σ β).Yields state post stopped ↔
      match work.alone with
      | .ok value => post value state
      | .error stop => stopped stop state := by
  rw [Action.collective, yields_of, Task.alone_bind]
  show (match (work.alone, state) with
    | (.ok value, after) => post value after
    | (.error stop, after) => stopped stop after) ↔ _
  cases work.alone <;> rfl

@[simp]
theorem yields_attempt {objectName : String} {what : Attempt} :
    (action.attempt objectName what).Yields state post stopped ↔
      action.Yields state post fun stop => stopped (stop.within objectName what) := by
  rw [Action.attempt, yields_of, Task.alone_bind, Yields, Action.alone]
  rcases (action.on state).alone with ⟨_ | value, after⟩ <;> rfl

@[simp]
theorem yields_part {get : σ → τ} {put : τ → σ → σ} {work : EStateM (Stop α) τ β} :
    (Action.part get put work).Yields state post stopped ↔
      match work (get state) with
      | .ok value after => post value (put after state)
      | .error stop after => stopped stop (put after state) := by
  rw [Action.part, yields_of]
  cases work (get state) <;> rfl

@[simp]
theorem yields_first {other : τ} {post : β → σ × τ → Prop} {stopped : Stop α → σ × τ → Prop} :
    (Action.first action : Action α (σ × τ) β).Yields (state, other) post stopped ↔
      action.Yields state (fun value after => post value (after, other))
        fun stop after => stopped stop (after, other) := by
  rw [Action.first, yields_of, Task.alone_bind, Yields, Action.alone]
  rcases (action.on state).alone with ⟨_ | value, after⟩ <;> rfl

/-- The action keeps a property of its state, and it stops for foreseen reasons only. -/
def Maintains (action : Action α σ β) (state : σ) (kept : σ → Prop) : Prop :=
  action.Yields state (fun _ after => kept after) fun stop after => stop.IsForeseen ∧ kept after

/-- What never stops, and leaves a state with a property. -/
theorem Yields.maintains {kept : σ → Prop}
    (yields : action.Yields state (fun _ after => kept after) fun _ _ => False) :
    action.Maintains state kept :=
  yields.imp (fun _ _ after => after) fun _ _ => False.elim

theorem Maintains.bind {kept : σ → Prop} {f : β → Action α σ γ} (first : action.Maintains state kept)
    (later : ∀ value after, kept after → (f value).Maintains after kept) :
    (action >>= f).Maintains state kept := by
  rw [Maintains, yields_bind]
  exact first.imp later fun _ _ stopped => stopped

/--
Work on each member of a list whose members are labelled, given what it does to one of them.
Where it stops, some members are done, and the rest is as it was.
-/
theorem yields_onEach {action : Nat → Action α (τ × σ) Unit} {before done halted : ι → τ → Prop}
    {reason : Stop α → Prop} {labels : List ι} :
    ∀ {number : Nat} {members : List τ} (state : σ),
      (∀ i label member state, (label, i) ∈ labels.zipIdx number → before label member →
        (action i).Yields (member, state) (fun _ after => done label after.1)
          fun stop after => reason stop ∧ halted label after.1) →
      List.Forall₂ before labels members →
      match (onEach action number members state).alone with
      | (.ok _, members', _) => List.Forall₂ done labels members'
      | (.error stop, members', _) => reason stop ∧
        List.Forall₂ (fun label member => done label member ∨ halted label member ∨
          before label member) labels members' := by
  induction labels with
  | nil =>
      rintro number _ state each ⟨⟩
      exact .nil
  | cons label labels ih =>
      rintro number _ state each (_ | ⟨here, rest⟩)
      next member members =>
        have first := each number label member state (by simp) here
        have others : ∀ i other member state, (other, i) ∈ labels.zipIdx (number + 1) →
            before other member → (action i).Yields (member, state)
              (fun _ after => done other after.1)
              fun stop after => reason stop ∧ halted other after.1 := by
          intro i other member state found
          exact each i other member state (by simp [found])
        have untouched : List.Forall₂ (fun label member => done label member ∨
            halted label member ∨ before label member) labels members :=
          rest.imp fun _ _ kept => Or.inr (Or.inr kept)
        rw [onEach, Task.alone_bind]
        rw [Yields, Action.alone] at first
        generalize ((action number).on (member, state)).alone = result at *
        rcases result with ⟨stop | _, after, state'⟩
        · exact ⟨first.1, .cons (Or.inr (Or.inl first.2)) untouched⟩
        · have later := ih state' others rest
          simp only [Task.alone_bind]
          generalize (onEach action (number + 1) members state').alone = result at *
          rcases result with ⟨stop | _, members', state''⟩
          · exact ⟨later.1, .cons (Or.inl first) later.2⟩
          · exact .cons first later

end Action

end ImmersedBody
