import ImmersedBody.Field.Composite
import ImmersedBody.Field.Nodal

/-!
# Edits of fields

All that a caller on the only rank can do to a field or a composite field that is
handed out to be changed.  An edit that is refused may have written some entries
before.

No edit touches a layout: `CompositeField.layouts_edit`.
-/

namespace ImmersedBody

variable {α : Type}

/-- A change of a field. -/
inductive FieldEdit (α : Type) where
  | set (entry : Nat) (value : α)
  | add (entry : Nat) (value : α)
  | setNode (number : Nat) (values : List α)
  /-- All owned entries are opened for writing and written, if there are as many values. -/
  | write (values : List α)
  | close
  | scale (factor : α)
  | copyFrom (source : NodalField α)
  | clear

/-- A change of a composite field. -/
inductive CompositeEdit (α : Type) where
  /-- A change of the part with a number, if there is one. -/
  | part (number : Nat) (edit : FieldEdit α)
  | scale (factor : α)
  | copyFrom (source : CompositeField α)
  | ofFlat (values : List α)

/-- What work makes of a state, also if it stops. -/
def stateAfter {ε σ : Type} (work : EStateM ε σ Unit) (state : σ) : σ :=
  match work state with
  | .ok _ after | .error _ after => after

variable [Zero α] [Add α] [Mul α]

/-- The field after an edit on the only rank. -/
def NodalField.edit (field : NodalField α) : FieldEdit α → NodalField α
  | .set entry value => (field.set entry value).toOption.getD field
  | .add entry value => (field.add entry value).toOption.getD field
  | .setNode number values => stateAfter (setNode number values) field
  | .write values => stateAfter (writeList values) field
  | .close => { field with synchronized := true }
  | .scale factor => field.scale factor
  | .copyFrom source => (field.copyFrom source).toOption.getD field
  | .clear => field.cleared

/-- The composite field after an edit on the only rank. -/
def CompositeField.edit (composite : CompositeField α) : CompositeEdit α → CompositeField α
  | .part number edit => ⟨composite.parts.modify number (·.edit edit)⟩
  | .scale factor => composite.scale factor
  | .copyFrom source => stateAfter source.copyFrom composite
  | .ofFlat values => (composite.ofFlat values).toOption.getD composite

namespace NodalField

omit [Zero α] [Add α] [Mul α] in
theorem layout_of_modify {field after : NodalField α} {entry : Nat} {f : α → α}
    (changed : field.modify entry f = .ok after) : after.layout = field.layout := by
  rw [modify] at changed
  split at changed
  · cases changed
    rfl
  · cases changed

omit [Zero α] [Add α] [Mul α] in
theorem layout_modify (field : NodalField α) (entry : Nat) (f : α → α) :
    ((field.modify entry f).toOption.getD field).layout = field.layout := by
  cases changed : field.modify entry f with
  | error refused =>
      rfl
  | ok after =>
      exact layout_of_modify changed

omit [Zero α] [Add α] [Mul α] in
theorem layout_setFrom (values : List α) (field : NodalField α) (entry : Nat) :
    (stateAfter (setFrom entry values) field).layout = field.layout := by
  induction values generalizing field entry with
  | nil =>
      rfl
  | cons value values ih =>
      rw [stateAfter, setFrom]
      cases written : field.set entry value with
      | error refused =>
          simp only [written]
      | ok after =>
          have later := ih after (entry + 1)
          rw [stateAfter] at later
          simp only [written]
          exact later.trans (layout_of_modify written)

omit [Zero α] [Add α] [Mul α] in
theorem layout_writeList (values : List α) (field : NodalField α) :
    (stateAfter (writeList values) field).layout = field.layout := by
  by_cases fits : values.length = field.owned.size
  · simp only [stateAfter, writeList, dif_pos fits]
    rfl
  · simp only [stateAfter, writeList, dif_neg fits]
    rfl

omit [Zero α] [Add α] [Mul α] in
theorem layout_of_copyFrom {field source copied : NodalField α}
    (worked : field.copyFrom source = .ok copied) : copied.layout = field.layout := by
  rw [copyFrom] at worked
  split at worked
  next compatible =>
    rw [NodalField.compatible, beq_iff_eq] at compatible
    cases worked
    exact compatible.symm
  next =>
    cases worked

omit [Zero α] [Add α] [Mul α] in
theorem layout_copyFrom (field source : NodalField α) :
    ((field.copyFrom source).toOption.getD field).layout = field.layout := by
  cases worked : field.copyFrom source with
  | error refused =>
      rfl
  | ok copied =>
      exact layout_of_copyFrom worked

theorem layout_edit (field : NodalField α) (edit : FieldEdit α) :
    (field.edit edit).layout = field.layout := by
  cases edit with
  | set entry value =>
      exact layout_modify field entry fun _ => value
  | add entry value =>
      exact layout_modify field entry (· + value)
  | setNode number values =>
      exact layout_setFrom values field _
  | write values =>
      exact layout_writeList values field
  | close | scale factor | clear =>
      rfl
  | copyFrom source =>
      exact layout_copyFrom field source

end NodalField

namespace CompositeField

omit [Zero α] [Add α] [Mul α] in
theorem layouts_copyParts (sources targets : List (NodalField α)) :
    (copyParts targets sources).2.map (·.layout) = targets.map (·.layout) := by
  induction targets generalizing sources with
  | nil =>
      cases sources <;> rfl
  | cons target targets ih =>
      cases sources with
      | nil =>
          rfl
      | cons source sources =>
          rw [copyParts]
          cases worked : target.copyFrom source with
          | error refused =>
              rfl
          | ok copied =>
              simp only [List.map_cons, ih sources, NodalField.layout_of_copyFrom worked]

omit [Zero α] [Add α] [Mul α] in
theorem layouts_fillParts (parts : List (NodalField α)) (values : List α) :
    (fillParts parts values).map (·.layout) = parts.map (·.layout) := by
  induction parts generalizing values with
  | nil =>
      rfl
  | cons part parts ih =>
      rw [fillParts, List.map_cons, List.map_cons, ih]
      split <;> rfl

omit [Zero α] [Add α] [Mul α] in
theorem layouts_copyFrom (composite source : CompositeField α) :
    (stateAfter source.copyFrom composite).parts.map (·.layout) =
      composite.parts.map (·.layout) := by
  have same := layouts_copyParts source.parts composite.parts
  by_cases fits : composite.parts.length = source.parts.length
  · simp only [stateAfter, copyFrom, ne_eq, fits, not_true_eq_false, if_false]
    rcases copied : copyParts composite.parts source.parts with ⟨_ | _, parts⟩ <;>
      rw [copied] at same <;> exact same
  · simp only [stateAfter, copyFrom, ne_eq, fits, not_false_eq_true, if_true]

/-- No edit touches a layout. -/
theorem layouts_edit (composite : CompositeField α) (edit : CompositeEdit α) :
    (composite.edit edit).parts.map (·.layout) = composite.parts.map (·.layout) := by
  cases edit with
  | part number edit =>
      apply List.ext_getElem
      · simp [CompositeField.edit]
      · intro i after before
        simp only [CompositeField.edit, List.getElem_map, List.getElem_modify]
        split
        · exact NodalField.layout_edit _ edit
        · rfl
  | scale factor =>
      simp only [CompositeField.edit, scale, List.map_map]
      rfl
  | copyFrom source =>
      exact layouts_copyFrom composite source
  | ofFlat values =>
      simp only [CompositeField.edit, ofFlat]
      cases composite.checkLength values.length with
      | error refused =>
          rfl
      | ok _ =>
          exact layouts_fillParts composite.parts values

end CompositeField

end ImmersedBody
