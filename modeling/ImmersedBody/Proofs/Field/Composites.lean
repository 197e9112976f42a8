import Mathlib.Data.List.Forall2
import ImmersedBody.Field.Composite

/-!
# Composites that are overwritten part by part

Work that copies fields into the parts of a composite goes from the first part to the
last.  A part that is not offered a field of its layout ends the work, and the parts
in front of it stay overwritten.  `CompositeField.WritesInOrder` says when such work
succeeds and what it leaves; `CompositeField.writesInOrder_copyFrom` says so of copying
one composite to another.
-/

namespace ImmersedBody

variable {α : Type}

namespace NodalField

theorem layout_eq_of_compatible {target source : NodalField α}
    (compatible : target.compatible source = true) : source.layout = target.layout := by
  rw [NodalField.compatible, beq_iff_eq] at compatible
  exact compatible.symm

theorem copyFrom_of_compatible {target source : NodalField α}
    (compatible : target.compatible source = true) : target.copyFrom source = .ok source :=
  if_pos compatible

theorem copyFrom_of_incompatible {target source : NodalField α}
    (incompatible : ¬ target.compatible source = true) :
    target.copyFrom source = .error .incompatibleLayouts :=
  if_neg incompatible

end NodalField

namespace CompositeField

/-! ## Offers -/

/-- Whether a part can take over what it is offered. -/
def Takes (target : NodalField α) (offer : Option (NodalField α)) : Prop :=
  ∃ source, offer = some source ∧ target.compatible source = true

instance (target : NodalField α) (offer : Option (NodalField α)) :
    Decidable (Takes target offer) :=
  decidable_of_iff (offer.any target.compatible = true) (by cases offer <;> simp [Takes])

/-- The fields that are taken over in front of the first part that cannot. -/
def taken : List (NodalField α) → List (Option (NodalField α)) → List (NodalField α)
  | target :: targets, some source :: offers =>
    if target.compatible source then source :: taken targets offers else []
  | _, _ => []

/-- The parts after those in front have been overwritten. -/
def overwritten (targets : List (NodalField α)) (offers : List (Option (NodalField α))) :
    List (NodalField α) :=
  taken targets offers ++ targets.drop (taken targets offers).length

variable {target source : NodalField α} {targets : List (NodalField α)}
  {offer : Option (NodalField α)} {offers : List (Option (NodalField α))}

@[simp]
theorem taken_nil : taken [] offers = [] := by
  simp [taken]

theorem taken_of_takes (compatible : target.compatible source = true) :
    taken (target :: targets) (some source :: offers) = source :: taken targets offers := by
  rw [taken, if_pos compatible]

theorem taken_of_not_takes (refuses : ¬ Takes target offer) :
    taken (target :: targets) (offer :: offers) = [] := by
  cases offer with
  | none =>
      rfl
  | some source =>
      rw [taken, if_neg fun compatible => refuses ⟨source, rfl, compatible⟩]

theorem overwritten_of_takes (compatible : target.compatible source = true) :
    overwritten (target :: targets) (some source :: offers) =
      source :: overwritten targets offers := by
  rw [overwritten, taken_of_takes compatible]
  rfl

theorem overwritten_of_not_takes (refuses : ¬ Takes target offer) :
    overwritten (target :: targets) (offer :: offers) = target :: targets := by
  rw [overwritten, taken_of_not_takes refuses]
  rfl

/-- Nothing is changed exactly if what is taken over was there before. -/
theorem overwritten_eq_self_iff :
    overwritten targets offers = targets ↔ taken targets offers <+: targets :=
  List.prefix_iff_eq_append.symm

/-- Where all parts can take over what they are offered, all of it is taken over. -/
theorem overwritten_of_all (all : List.Forall₂ Takes targets offers) :
    (overwritten targets offers).map some = offers := by
  induction all with
  | nil =>
      simp [overwritten]
  | cons takes others ih =>
      rcases takes with ⟨source, rfl, compatible⟩
      rw [overwritten_of_takes compatible, List.map_cons, ih]

/-! ## Work in order -/

/-- Overwriting parts in order, with what comes of it and the parts that are left. -/
structure InOrder {ε : Type} (targets : List (NodalField α))
    (offers : List (Option (NodalField α))) (outcome : Except ε Unit × List (NodalField α)) :
    Prop where
  succeeds : outcome.1 = .ok () ↔ List.Forall₂ Takes targets offers
  parts : outcome.2 = overwritten targets offers

namespace InOrder

variable {ε : Type}

theorem nil :
    InOrder [] ([] : List (Option (NodalField α))) ((.ok (), []) : Except ε Unit × _) where
  succeeds := ⟨fun _ => .nil, fun _ => rfl⟩
  parts := by simp [overwritten]

theorem takes {outcome : Except ε Unit} {left : List (NodalField α)}
    (compatible : target.compatible source = true)
    (others : InOrder targets offers (outcome, left)) :
    InOrder (target :: targets) (some source :: offers) (outcome, source :: left) where
  succeeds := by
    rw [List.forall₂_cons, others.succeeds]
    exact ⟨fun all => ⟨⟨source, rfl, compatible⟩, all⟩, fun all => all.2⟩
  parts := by
    rw [overwritten_of_takes compatible, ← others.parts]

theorem refuses {failure : ε} (refuses : ¬ Takes target offer) :
    InOrder (target :: targets) (offer :: offers) (.error failure, target :: targets) where
  succeeds := by
    rw [List.forall₂_cons]
    exact ⟨nofun, fun all => absurd all.1 refuses⟩
  parts := (overwritten_of_not_takes refuses).symm

end InOrder

/-- Copying takes over the parts of the source in order. -/
theorem inOrder_copyParts {targets sources : List (NodalField α)}
    (same : targets.length = sources.length) :
    InOrder targets (sources.map some) (copyParts targets sources) := by
  induction targets generalizing sources with
  | nil =>
      rw [List.eq_nil_of_length_eq_zero same.symm]
      exact .nil
  | cons target targets ih =>
      cases sources with
      | nil =>
          cases same
      | cons source sources =>
          by_cases compatible : target.compatible source = true
          · rw [copyParts, NodalField.copyFrom_of_compatible compatible]
            exact .takes compatible (ih (Nat.succ.inj same))
          · rw [copyParts, NodalField.copyFrom_of_incompatible compatible]
            apply InOrder.refuses
            rintro ⟨_, ⟨⟩, suits⟩
            exact compatible suits

/--
Work on a composite that overwrites its parts in order once it is ready: when it succeeds, what it
leaves, and when it leaves everything as it was although it fails.
-/
structure WritesInOrder {ε : Type} (ready : Prop) (target : CompositeField α)
    (offers : List (Option (NodalField α)))
    (result : EStateM.Result ε (CompositeField α) Unit) : Prop where
  succeeds : (∃ after, result = .ok () after) ↔ ready ∧ List.Forall₂ Takes target.parts offers
  copies : ∀ after, result = .ok () after → after.parts.map some = offers
  leaves : ∀ failure after, result = .error failure after →
    after = target ∨ ready ∧ after = ⟨overwritten target.parts offers⟩
  unchanged : ∀ failure after, result = .error failure after →
    (after = target ↔ (ready → taken target.parts offers <+: target.parts))

namespace WritesInOrder

variable {ε : Type} {ready : Prop} {target : CompositeField α}

/-- Work that is not ready leaves the composite alone. -/
theorem of_not_ready (notReady : ¬ ready) {failure : ε} :
    WritesInOrder ready target offers (.error failure target) where
  succeeds := ⟨nofun, fun both => absurd both.1 notReady⟩
  copies := nofun
  leaves := by
    rintro _ _ ⟨⟩
    exact Or.inl rfl
  unchanged := by
    rintro _ _ ⟨⟩
    exact ⟨fun _ isReady => absurd isReady notReady, fun _ => rfl⟩

theorem of_accepted (isReady : ready) {left : List (NodalField α)}
    (inOrder : InOrder target.parts offers ((.ok (), left) : Except ε Unit × _)) :
    WritesInOrder ready target offers
      (.ok () ⟨left⟩ : EStateM.Result ε (CompositeField α) Unit) where
  succeeds := ⟨fun _ => ⟨isReady, inOrder.succeeds.mp rfl⟩, fun _ => ⟨_, rfl⟩⟩
  copies := by
    rintro _ ⟨⟩
    have left_eq : left = overwritten target.parts offers := inOrder.parts
    rw [left_eq, overwritten_of_all (inOrder.succeeds.mp rfl)]
  leaves := nofun
  unchanged := nofun

theorem of_refused (isReady : ready) {failure : ε} {left : List (NodalField α)}
    (inOrder : InOrder target.parts offers (.error failure, left)) :
    WritesInOrder ready target offers (.error failure ⟨left⟩) where
  succeeds := ⟨nofun, fun both => nomatch inOrder.succeeds.mpr both.2⟩
  copies := nofun
  leaves := by
    rintro _ _ ⟨⟩
    exact Or.inr ⟨isReady, congrArg CompositeField.mk inOrder.parts⟩
  unchanged := by
    rintro _ _ ⟨⟩
    have left_eq : left = overwritten target.parts offers := inOrder.parts
    rw [← overwritten_eq_self_iff, ← left_eq]
    exact ⟨fun same _ => congrArg CompositeField.parts same,
      fun same => congrArg CompositeField.mk (same isReady)⟩

end WritesInOrder

/-- Copying a composite to another with as many parts overwrites these in order. -/
theorem writesInOrder_copyFrom (source target : CompositeField α) :
    WritesInOrder (target.parts.length = source.parts.length) target (source.parts.map some)
      (source.copyFrom target) := by
  by_cases same : target.parts.length = source.parts.length
  · have inOrder := inOrder_copyParts same
    rw [copyFrom, if_neg (not_not_intro same)]
    generalize copyParts target.parts source.parts = outcome at inOrder ⊢
    rcases outcome with ⟨failure | accepted, left⟩
    · exact .of_refused same inOrder
    · exact .of_accepted same inOrder
  · rw [copyFrom, if_pos same]
    exact .of_not_ready same

end CompositeField

end ImmersedBody
