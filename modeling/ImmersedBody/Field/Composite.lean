import ImmersedBody.Field.Exchange

/-!
# Composite fields

The constraint solver works on one vector that spans all structures.  A `CompositeField` holds the
fields of the structures in their order.  Its flat view strings together the entries that the rank
owns, part by part.
-/

namespace ImmersedBody

/-- The fields of all structures. -/
structure CompositeField (α : Type) where
  /-- The fields in the order of the structures. -/
  parts : List (NodalField α)
deriving DecidableEq

namespace CompositeField

variable {α : Type}

/-- Puts fields together, which all ranks do at the same point. -/
def assemble (parts : List (NodalField α)) : Collective α (CompositeField α) := do
  Collective.barrier "composite_vector_create"
  ExceptT.lift (Task.tell (.assembled parts.length) (.done ()))
  return ⟨parts⟩

/-- Takes a composite field apart, which all ranks do at the same point. -/
def release (composite : CompositeField α) : Collective α (List (NodalField α)) := do
  Collective.barrier "composite_vector_destroy"
  return composite.parts

/-- The number of entries that the rank owns in all parts. -/
def localLength (composite : CompositeField α) : Nat :=
  composite.parts.foldr (fun part total => part.owned.size + total) 0

/-- Whether two composites have the same parts. -/
def same [BEq α] (a b : CompositeField α) : Bool :=
  a.parts.length == b.parts.length && (a.parts.zip b.parts).all fun (p, q) => p.same q

/-- Multiplies every entry of every part by a factor. -/
def scale [Mul α] (composite : CompositeField α) (factor : α) : CompositeField α :=
  ⟨composite.parts.map (·.scale factor)⟩

/-- The composite with another field in the place of a part. -/
def setPart (composite : CompositeField α) (part : Nat) (field : NodalField α) :
    CompositeField α :=
  ⟨composite.parts.set part field⟩

/-- Copies parts one after the other.  The first with another layout ends it. -/
def copyParts : List (NodalField α) → List (NodalField α) →
    Except FieldError Unit × List (NodalField α)
  | target :: targets, source :: sources =>
    match target.copyFrom source with
    | .ok copied =>
      let (outcome, rest) := copyParts targets sources
      (outcome, copied :: rest)
    | .error e => (.error e, target :: targets)
  | targets, _ => (.ok (), targets)

/-- Copies all parts of a composite with as many parts. -/
def copyFrom (source : CompositeField α) : EStateM FieldError (CompositeField α) Unit :=
  fun composite =>
    if composite.parts.length ≠ source.parts.length then .error .incompatibleLayouts composite
    else
      match copyParts composite.parts source.parts with
      | (.ok (), parts) => .ok () ⟨parts⟩
      | (.error e, parts) => .error e ⟨parts⟩

/-- Checks the length of a flat view. -/
def checkLength (composite : CompositeField α) (found : Nat) : Except FieldError Unit :=
  if found = composite.localLength then .ok ()
  else .error (.lengthMismatch composite.localLength found)

/-- The flat view of a given length, times a factor. -/
def flat [Mul α] (composite : CompositeField α) (length : Nat) (factor : α) :
    Except FieldError (List α) := do
  composite.checkLength length
  return composite.parts.flatMap fun part => part.owned.toList.map (factor * ·)

/-- Writes the owned entries of all parts from a list that is long enough for them. -/
def fillParts : List (NodalField α) → List α → List (NodalField α)
  | [], _ => []
  | part :: parts, values =>
    let field := if h : (values.take part.owned.size).length = part.owned.size then
        part.write (values.take part.owned.size).toArray (by simpa using h)
      else part
    field :: fillParts parts (values.drop part.owned.size)

/-- The composite whose flat view is the given one.  Its ghosts are out of date. -/
def ofFlat (composite : CompositeField α) (values : List α) :
    Except FieldError (CompositeField α) := do
  composite.checkLength values.length
  return ⟨fillParts composite.parts values⟩

end CompositeField

end ImmersedBody
