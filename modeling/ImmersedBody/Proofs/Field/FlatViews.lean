import ImmersedBody.Field.Composite
import ImmersedBody.Proofs.Blocks

/-!
# Flat views of composites

A flat view strings together the entries that a rank owns, part by part.  `copyOut` writes
it into a slice and `copyIn` reads the parts back from one, each with the place of the next
part running along.  Neither does anything if the lengths do not fit.

The main theorem is `CompositeField.copyOut_copyIn_inverse`: entries stand behind those of
the parts in front of them, and both ways of going back and forth lead to the start, except
that the ghosts of the parts are out of date.
-/

namespace ImmersedBody

variable {α : Type}

/-- A field whose owned entries have been written, whatever values they got. -/
structure NodalField.Rewritten (field written : NodalField α) : Prop where
  layout : written.layout = field.layout
  ghosts : written.ghosts = field.ghosts
  outdated : written.synchronized = false

theorem NodalField.rewritten_write (field : NodalField α) (values : Array α)
    (fits : values.size = field.owned.size) : field.Rewritten (field.write values fits) where
  layout := rfl
  ghosts := rfl
  outdated := rfl

theorem NodalField.write_owned (field : NodalField α) :
    field.write field.owned rfl = field.opened :=
  rfl

namespace CompositeField

/-! ## Slices -/

/-- A slice with other values from a place on. -/
def putAt (slice : List α) (start : Nat) (values : List α) : List α :=
  slice.take start ++ values ++ slice.drop (start + values.length)

/-- Writes the multiples of all owned entries into a slice, part by part from a place on. -/
def putParts [Mul α] (factor : α) : List (NodalField α) → Nat → List α → List α
  | [], _, slice => slice
  | part :: parts, start, slice =>
    putParts factor parts (start + part.owned.size)
      (putAt slice start (part.owned.toList.map (factor * ·)))

/-- Writes the flat view of a composite, times a factor, into a slice of its length. -/
def copyOut [Mul α] (composite : CompositeField α) (factor : α) :
    EStateM FieldError (List α) Unit := fun slice =>
  match composite.checkLength slice.length with
  | .ok () => .ok () (putParts factor composite.parts 0 slice)
  | .error e => .error e slice

/-- Reads the owned entries of a composite from a slice of the length of its flat view. -/
def copyIn (values : List α) : EStateM FieldError (CompositeField α) Unit := fun composite =>
  match composite.ofFlat values with
  | .ok filled => .ok () filled
  | .error e => .error e composite

/-- The owned entries of all parts. -/
def entries (composite : CompositeField α) : List α :=
  composite.parts.flatMap (·.owned.toList)

/-- Where the entries of the part with a number begin in the flat view. -/
def start (composite : CompositeField α) (number : Nat) : Nat :=
  blockStart (composite.parts.map (·.owned.size)) number

variable {composite : CompositeField α}

theorem localLength_eq_sum (composite : CompositeField α) :
    composite.localLength = (composite.parts.map (·.owned.size)).sum := by
  rw [localLength, List.sum, List.foldr_map]

@[simp]
theorem length_entries (composite : CompositeField α) :
    composite.entries.length = composite.localLength := by
  simp [entries, localLength_eq_sum]

theorem checkLength_of_eq {found : Nat} (fits : found = composite.localLength) :
    composite.checkLength found = .ok () :=
  if_pos fits

theorem checkLength_of_ne {found : Nat} (differs : found ≠ composite.localLength) :
    composite.checkLength found = .error (.lengthMismatch composite.localLength found) :=
  if_neg differs

/-- An entry stands behind those of the parts in front of its part. -/
theorem getElem?_entries {number place : Nat} (inside : number < composite.parts.length)
    (below : place < composite.parts[number].owned.size) :
    composite.entries[composite.start number + place]? =
      some composite.parts[number].owned[place] := by
  have starts : composite.start number =
      blockStart (composite.parts.map fun part => part.owned.toList.length) number := by
    simp [start]
  rw [starts, entries, getElem?_flatMap_block]
  · simp [inside, below]
  · intro part found
    rw [List.getElem?_eq_getElem inside] at found
    cases found
    simpa using below

/-- Every place of the flat view is that of an entry. -/
theorem exists_entry {place : Nat} (inside : place < composite.localLength) :
    ∃ number, ∃ known : number < composite.parts.length,
      ∃ entry < composite.parts[number].owned.size, place = composite.start number + entry := by
  rw [← length_entries, entries] at inside
  rcases exists_block inside with ⟨number, part, entry, found, below, same⟩
  rcases List.getElem?_eq_some_iff.mp found with ⟨known, rfl⟩
  refine ⟨number, known, entry, by simpa using below, ?_⟩
  simpa [start] using same

/-! ## Writing a slice -/

/-- The loop has written the multiples of the entries in front, and nothing behind them. -/
theorem putParts_append [Mul α] (factor : α) (parts : List (NodalField α)) (done rest : List α)
    (room : (parts.map (·.owned.size)).sum ≤ rest.length) :
    putParts factor parts done.length (done ++ rest) =
      done ++ (parts.flatMap (·.owned.toList)).map (factor * ·) ++
        rest.drop (parts.map (·.owned.size)).sum := by
  induction parts generalizing done rest with
  | nil =>
      simp [putParts]
  | cons part parts ih =>
      rw [List.map_cons, List.sum_cons] at room
      have written : putAt (done ++ rest) done.length (part.owned.toList.map (factor * ·)) =
          (done ++ part.owned.toList.map (factor * ·)) ++ rest.drop part.owned.size := by
        simp [putAt, List.drop_append]
      have next : done.length + part.owned.size =
          (done ++ part.owned.toList.map (factor * ·)).length := by
        simp
      rw [putParts, written, next, ih]
      · simp [List.append_assoc]
      · rw [List.length_drop]
        omega

/-- What is written into a slice of the right length is the flat view. -/
theorem putParts_of_length [Mul α] (factor : α) {slice : List α}
    (fits : slice.length = composite.localLength) :
    putParts factor composite.parts 0 slice = composite.entries.map (factor * ·) := by
  rw [localLength_eq_sum] at fits
  have written := putParts_append factor composite.parts [] slice (Nat.le_of_eq fits.symm)
  rwa [List.length_nil, List.nil_append, List.nil_append, ← fits, List.drop_length,
    List.append_nil] at written

theorem flat_of_length [Mul α] (factor : α) {length : Nat}
    (fits : length = composite.localLength) :
    composite.flat length factor = .ok (composite.entries.map (factor * ·)) := by
  rw [flat, checkLength_of_eq fits, entries, List.map_flatMap]
  rfl

theorem copyOut_of_length [Mul α] (factor : α) {slice : List α}
    (fits : slice.length = composite.localLength) :
    composite.copyOut factor slice = .ok () (composite.entries.map (factor * ·)) := by
  simp only [copyOut, checkLength_of_eq fits, putParts_of_length factor fits]

/-! ## Reading a slice -/

/-- The first part takes as many values as it has entries, and leaves the others. -/
theorem fillParts_cons {part : NodalField α} {parts : List (NodalField α)} {own others : List α}
    (fits : own.length = part.owned.size) :
    fillParts (part :: parts) (own ++ others) =
      part.write own.toArray (by simpa using fits) :: fillParts parts others := by
  have first : (own ++ others).take part.owned.size = own := List.take_left' fits
  have later : (own ++ others).drop part.owned.size = others := List.drop_left' fits
  simp only [fillParts, first, later, fits, dif_pos]

/-- Parts that are filled have the given entries, and only their entries are written. -/
theorem fillParts_spec {parts : List (NodalField α)} {values : List α}
    (fits : values.length = (parts.map (·.owned.size)).sum) :
    List.Forall₂ NodalField.Rewritten parts (fillParts parts values) ∧
      (fillParts parts values).flatMap (·.owned.toList) = values := by
  induction parts generalizing values with
  | nil =>
      rw [List.eq_nil_of_length_eq_zero fits]
      exact ⟨.nil, rfl⟩
  | cons part parts ih =>
      rw [List.map_cons, List.sum_cons] at fits
      rw [← List.take_append_drop part.owned.size values]
      have own : (values.take part.owned.size).length = part.owned.size := by
        rw [List.length_take]
        omega
      have others : (values.drop part.owned.size).length = (parts.map (·.owned.size)).sum := by
        rw [List.length_drop]
        omega
      rcases ih others with ⟨rewritten, same⟩
      rw [fillParts_cons own, List.flatMap_cons, same]
      exact ⟨.cons (part.rewritten_write _ _) rewritten, rfl⟩

/-- Parts that are filled with their own entries have been opened for writing. -/
theorem fillParts_entries (parts : List (NodalField α)) :
    fillParts parts (parts.flatMap (·.owned.toList)) = parts.map NodalField.opened := by
  induction parts with
  | nil =>
      rfl
  | cons part parts ih =>
      rw [List.flatMap_cons, fillParts_cons (Array.length_toList), ih, List.map_cons]
      exact congrArg (· :: _) part.write_owned

theorem ofFlat_of_length {values : List α} (fits : values.length = composite.localLength) :
    composite.ofFlat values = .ok ⟨fillParts composite.parts values⟩ := by
  rw [ofFlat, checkLength_of_eq fits]
  rfl

theorem copyIn_of_length {values : List α} (fits : values.length = composite.localLength) :
    copyIn values composite = .ok () ⟨fillParts composite.parts values⟩ := by
  simp only [copyIn, ofFlat_of_length fits]

/-! ## Back and forth -/

/-- The owned entries of a composite that was filled are the values it was filled with. -/
theorem entries_fillParts {values : List α} (fits : values.length = composite.localLength) :
    entries ⟨fillParts composite.parts values⟩ = values := by
  rw [localLength_eq_sum] at fits
  exact (fillParts_spec fits).2

/--
A slice is written, and a composite is filled from one, exactly if it has the length of the flat
view; else an error tells the lengths and nothing changes.  The entries of a part are written from
the end of those of the parts in front of it on, which leaves no place out.  What a composite was
filled with is written again, and what was written fills it with the values it has.  Filling it
changes no layout and no ghost, but all ghosts are out of date.
-/
theorem copyOut_copyIn_inverse [Mul α] [One α] (one_mul : ∀ v : α, 1 * v = v)
    (composite : CompositeField α) :
    (∀ (factor : α) (slice : List α), slice.length = composite.localLength →
      ∃ written, composite.copyOut factor slice = .ok () written ∧
        composite.flat slice.length factor = .ok written ∧ written.length = slice.length ∧
        ∀ number (inside : number < composite.parts.length),
          ∀ place (below : place < composite.parts[number].owned.size),
            written[composite.start number + place]? =
              some (factor * composite.parts[number].owned[place])) ∧
    (∀ place < composite.localLength, ∃ number, ∃ inside : number < composite.parts.length,
      ∃ entry < composite.parts[number].owned.size, place = composite.start number + entry) ∧
    (∀ values : List α, values.length = composite.localLength →
      ∃ filled, copyIn values composite = .ok () filled ∧
        List.Forall₂ NodalField.Rewritten composite.parts filled.parts ∧
        ∀ slice : List α, slice.length = values.length →
          filled.copyOut 1 slice = .ok () values) ∧
    (∀ slice : List α, slice.length = composite.localLength →
      ∃ written, composite.copyOut 1 slice = .ok () written ∧
        copyIn written composite = .ok () ⟨composite.parts.map NodalField.opened⟩) ∧
    ∀ (factor : α) (slice : List α), slice.length ≠ composite.localLength →
      composite.copyOut factor slice =
        .error (.lengthMismatch composite.localLength slice.length) slice ∧
      copyIn slice composite =
        .error (.lengthMismatch composite.localLength slice.length) composite := by
  have unscaled (values : List α) : values.map (1 * ·) = values := by
    simp [one_mul]
  refine ⟨?_, fun place inside => exists_entry inside, ?_, ?_, ?_⟩
  · intro factor slice fits
    refine ⟨_, copyOut_of_length factor fits, flat_of_length factor fits, by simp [fits], ?_⟩
    intro number inside place below
    rw [List.getElem?_map, getElem?_entries inside below]
    rfl
  · intro values fits
    have spec := fillParts_spec (fits.trans composite.localLength_eq_sum)
    refine ⟨_, copyIn_of_length fits, spec.1, ?_⟩
    intro slice same
    have again := entries_fillParts fits
    have room : slice.length = localLength ⟨fillParts composite.parts values⟩ := by
      rw [← length_entries, again, same]
    rw [copyOut_of_length 1 room, again, unscaled]
  · intro slice fits
    refine ⟨composite.entries, ?_, ?_⟩
    · rw [copyOut_of_length 1 fits, unscaled]
    · rw [copyIn_of_length composite.length_entries, entries, fillParts_entries]
  · intro factor slice differs
    have refused := checkLength_of_ne differs
    constructor
    · simp only [copyOut, refused]
    · simp only [copyIn, ofFlat, refused]
      rfl

/-- A composite of a part with a ghost, a part without entries and one more part. -/
def threeParts : CompositeField Int where
  parts := [
    .ofFn ⟨3, ⟨0, 2⟩, #[2], 1, Nat.one_pos, by decide, by decide, by decide, by decide⟩
      fun i _ => 5 + i,
    .ofFn ⟨2, ⟨1, 1⟩, #[], 1, Nat.one_pos, by decide, by decide, by decide, by decide⟩ fun _ _ => 0,
    .ofFn ⟨1, ⟨0, 1⟩, #[], 1, Nat.one_pos, by decide, by decide, by decide, by decide⟩ fun _ _ => -3]

/-- The last part is written behind the first one, read back, and a short slice is refused. -/
theorem copyOut_copyIn_inverse_threeParts :
    (∃ written, threeParts.copyOut 2 [0, 0, 0] = .ok () written ∧ written[2]? = some (-6)) ∧
    (∃ filled, copyIn [1, 4, 8] threeParts = .ok () filled ∧
      filled.copyOut 1 [0, 0, 0] = .ok () [1, 4, 8]) ∧
    threeParts.copyOut 1 [0] = .error (.lengthMismatch 3 1) [0] := by
  rcases copyOut_copyIn_inverse Int.one_mul threeParts with ⟨out, -, back, -, refused⟩
  refine ⟨?_, ?_, (refused 1 [0] (by decide)).1⟩
  · rcases out 2 [0, 0, 0] rfl with ⟨written, copied, -, -, places⟩
    exact ⟨written, copied, places 2 (by decide) 0 (by decide)⟩
  · rcases back [1, 4, 8] rfl with ⟨filled, copied, -, again⟩
    exact ⟨filled, copied, again [0, 0, 0] rfl⟩

end CompositeField

end ImmersedBody
