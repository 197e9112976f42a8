import ImmersedBody.Field.Layout
import ImmersedBody.Space.Dim

/-!
# Distributed fields

A `NodalField` holds the entries that one rank owns and its copies of ghosts.  Only owned entries
can be written.  A write leaves the copies on other ranks out of date, so from then on no ghost can
be read until the field is closed.
-/

namespace ImmersedBody

/-- The part of a distributed field that one rank holds. -/
structure NodalField (α : Type) where
  layout : FieldLayout
  owned : Array α
  /-- The copies of ghosts. -/
  ghosts : Array α
  /-- Whether the copies are up to date. -/
  synchronized : Bool
  owned_size : owned.size = layout.owned.length
  ghosts_size : ghosts.size = layout.ghosts.size
deriving DecidableEq

namespace NodalField

variable {α : Type}

/-- Whether two fields have the same layout, the same values and the same state. -/
def same [BEq α] (a b : NodalField α) : Bool :=
  a.layout == b.layout && a.owned == b.owned && a.ghosts == b.ghosts
    && a.synchronized == b.synchronized

/-- The field with the given value in every entry. -/
def constant (layout : FieldLayout) (value : α) : NodalField α where
  layout := layout
  owned := Array.replicate layout.owned.length value
  ghosts := Array.replicate layout.ghosts.size value
  synchronized := true
  owned_size := by simp
  ghosts_size := by simp

/-- The field with zero in every entry. -/
def zeros [Zero α] (layout : FieldLayout) : NodalField α :=
  constant layout 0

/-- The field with zero in every entry, if the entries fit into memory. -/
def zeros? [Zero α] (layout : FieldLayout) : Except Fault (NodalField α) := do
  Fault.checkMemory layout.owned.length
  return zeros layout

/-- The field with the values of a function on all entries. -/
def ofFn (layout : FieldLayout) (value : (i : Nat) → i < layout.globalLength → α) :
    NodalField α where
  layout := layout
  owned := Array.ofFn fun j : Fin layout.owned.length =>
    value (layout.owned.start + j) (layout.start_add_lt j.isLt)
  ghosts := Array.ofFn fun j : Fin layout.ghosts.size =>
    value layout.ghosts[j] (layout.ghost_lt j j.isLt)
  synchronized := true
  owned_size := by simp
  ghosts_size := by simp

/-- The field with the given values of all entries. -/
def ofGlobal (layout : FieldLayout) (values : Array α) : Except FieldError (NodalField α) :=
  if h : values.size = layout.globalLength then
    .ok (ofFn layout fun i hi => values[i])
  else .error (.lengthMismatch layout.globalLength values.size)

/-- The number of entries on all ranks. -/
def length (field : NodalField α) : Nat :=
  field.layout.globalLength

/-- The value of an entry that is owned or ghosted. -/
def get (field : NodalField α) (i : Nat) : Except FieldError α :=
  if h : field.layout.Owns i then
    have := IndexRange.offset_lt h
    have := field.owned_size
    .ok field.owned[i - field.layout.owned.start]
  else
    match field.layout.ghosts.finIdxOf? i with
    | some j =>
      have := field.ghosts_size
      if field.synchronized then .ok field.ghosts[j] else .error (.unsynchronized i)
    | none => .error (.notAvailable i)

/-- Changes the value of an owned entry. -/
@[inline]
def modify (field : NodalField α) (i : Nat) (f : α → α) : Except FieldError (NodalField α) :=
  if field.layout.Owns i then
    .ok { field with
      owned := field.owned.modify (i - field.layout.owned.start) f
      synchronized := false
      owned_size := by simp [field.owned_size] }
  else .error (.notOwned i)

/-- Writes the value of an owned entry. -/
@[inline]
def set (field : NodalField α) (i : Nat) (value : α) : Except FieldError (NodalField α) :=
  field.modify i fun _ => value

/-- Adds to the value of an owned entry. -/
def add [Add α] (field : NodalField α) (i : Nat) (value : α) : Except FieldError (NodalField α) :=
  field.modify i (· + value)

/-- The value in a place of a node. -/
def nodeEntry (field : NodalField α) (number place : Nat) : Except (Stop α) α :=
  (field.get (number * field.layout.blockSize + place)).mapError .access

/-- The values of a node, as many as asked for. -/
def node (field : NodalField α) (count number : Nat) : Except (Stop α) (List α) :=
  (List.range count).mapM (field.nodeEntry number)

/-- The vector that a node of a field in a dimension carries. -/
def vector [Zero α] (field : NodalField α) (dim : Dim) (number : Nat) :
    Except (Stop α) (Vec3 α) :=
  match dim with
  | .two => do
    let x ← field.nodeEntry number 0
    let y ← field.nodeEntry number 1
    return ⟨x, y, 0⟩
  | .three => do
    let x ← field.nodeEntry number 0
    let y ← field.nodeEntry number 1
    let z ← field.nodeEntry number 2
    return ⟨x, y, z⟩

/-- Writes values one after the other, from an entry on.  The first that is not owned ends it. -/
def setFrom : Nat → List α → EStateM (Stop α) (NodalField α) Unit
  | _, [] => pure ()
  | i, value :: values => fun field =>
    match field.set i value with
    | .ok field => setFrom (i + 1) values field
    | .error e => .error (.access e) field

/-- Writes the values of a node. -/
def setNode (number : Nat) (values : List α) : EStateM (Stop α) (NodalField α) Unit :=
  fun field => setFrom (number * field.layout.blockSize) values field

/-- Writes the vector that a node carries in a dimension. -/
def setVector (dim : Dim) (number : Nat) (v : Vec3 α) : EStateM (Stop α) (NodalField α) Unit :=
  setNode number (dim.coords v).toList

/-- The field after its owned entries were opened for writing. -/
def opened (field : NodalField α) : NodalField α :=
  { field with synchronized := false }

/-- Writes all owned entries. -/
def write (field : NodalField α) (values : Array α) (h : values.size = field.owned.size) :
    NodalField α :=
  { field with
    owned := values
    synchronized := false
    owned_size := by rw [h, field.owned_size] }

/-- Writes all owned entries from a function of their number on all ranks. -/
def fill (field : NodalField α) (value : Nat → α) : NodalField α :=
  field.write (Array.ofFn fun j : Fin field.owned.size => value (field.layout.owned.start + j))
    (by simp)

/--
Writes all owned entries from a list.  The field is open for writing before the length of the list
is looked at.
-/
def writeList (values : List α) : EStateM Fault (NodalField α) Unit := fun field =>
  if h : values.length = field.owned.size then
    .ok () (field.write values.toArray (by simpa using h))
  else .error .wrongLength field.opened

/-- Changes every owned and ghost entry alike, which does not touch what is up to date. -/
def map (field : NodalField α) (f : α → α) : NodalField α :=
  { field with
    owned := field.owned.map f
    ghosts := field.ghosts.map f
    owned_size := by simp [field.owned_size]
    ghosts_size := by simp [field.ghosts_size] }

/-- Multiplies every owned and ghost entry by a factor. -/
def scale [Mul α] (field : NodalField α) (factor : α) : NodalField α :=
  field.map (· * factor)

/-- The field with the same layout and zero in every entry. -/
def cleared [Zero α] (field : NodalField α) : NodalField α :=
  zeros field.layout

/-- Whether values can be copied between two fields. -/
def compatible (a b : NodalField α) : Bool :=
  a.layout == b.layout

/-- Takes over all entries of a field of the same layout, and whether its ghosts are up to date. -/
def copyFrom (field source : NodalField α) : Except FieldError (NodalField α) :=
  if field.compatible source then .ok source else .error .incompatibleLayouts

end NodalField

end ImmersedBody
