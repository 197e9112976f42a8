import ImmersedBody.Failure

/-!
# Layouts of distributed fields

The entries of a distributed field are numbered through all ranks.  A rank owns a range of them and
may hold copies of others, its *ghosts*.  Entries come in blocks, one per node.

A layout says what one rank owns and copies.  Its ranges are in bounds, and no ghost is owned:
`FieldLayout.make` refuses everything else.
-/

namespace ImmersedBody

/-- The numbers from a start up to an end, which is not one of them. -/
structure IndexRange where
  start : Nat
  /-- The number behind the last one. -/
  stop : Nat
deriving DecidableEq, Repr

namespace IndexRange

/-- How many numbers there are. -/
def length (range : IndexRange) : Nat :=
  range.stop - range.start

/-- Whether a number is in the range. -/
def Contains (range : IndexRange) (i : Nat) : Prop :=
  range.start ≤ i ∧ i < range.stop

instance (range : IndexRange) (i : Nat) : Decidable (range.Contains i) :=
  inferInstanceAs (Decidable (_ ∧ _))

theorem offset_lt {range : IndexRange} {i : Nat} (h : range.Contains i) :
    i - range.start < range.length := by
  obtain ⟨low, high⟩ := h
  simp only [length]
  omega

/-- The whole blocks of a size in the range, by their numbers. -/
def blocks (range : IndexRange) (blockSize : Nat) : List Nat :=
  List.range' (range.start / blockSize) (range.stop / blockSize - range.start / blockSize)

end IndexRange

/-- What one rank owns and copies of a distributed field. -/
structure FieldLayout where
  /-- The number of entries on all ranks. -/
  globalLength : Nat
  owned : IndexRange
  /-- The entries of other ranks that the rank has copies of. -/
  ghosts : Array Nat
  /-- The number of entries per node. -/
  blockSize : Nat
  block_pos : 0 < blockSize
  start_le : owned.start ≤ owned.stop
  stop_le : owned.stop ≤ globalLength
  ghost_lt : ∀ i (h : i < ghosts.size), ghosts[i] < globalLength
  ghost_not_owned : ∀ i (h : i < ghosts.size), ¬ owned.Contains ghosts[i]
deriving DecidableEq

namespace FieldLayout

/-- The fault of a ghost that is out of bounds or owned. -/
def ghostFault? (globalLength : Nat) (owned : IndexRange) (ghost : Nat) : Option Fault :=
  if globalLength ≤ ghost then some (.ghostOutOfBounds ghost)
  else if owned.Contains ghost then some (.ghostOwned ghost)
  else none

theorem ghostFault?_eq_none_iff {globalLength : Nat} {owned : IndexRange} {ghost : Nat} :
    ghostFault? globalLength owned ghost = none ↔
      ghost < globalLength ∧ ¬ owned.Contains ghost := by
  unfold ghostFault?
  split
  · simp; omega
  · split <;> simp_all

/-- The fault of the first ghost that has one. -/
def firstGhostFault? (globalLength : Nat) (owned : IndexRange) (ghosts : Array Nat) :
    Option Fault :=
  ghosts.toList.findSome? (ghostFault? globalLength owned)

theorem ghosts_sound {globalLength : Nat} {owned : IndexRange} {ghosts : Array Nat}
    (h : firstGhostFault? globalLength owned ghosts = none) (i : Nat) (hi : i < ghosts.size) :
    ghosts[i] < globalLength ∧ ¬ owned.Contains ghosts[i] := by
  have := (List.findSome?_eq_none_iff.mp h) ghosts[i] (by simp)
  exact ghostFault?_eq_none_iff.mp this

/-- The layout with the given ranges, if they are sound. -/
def make (globalLength : Nat) (owned : IndexRange) (ghosts : Array Nat) (blockSize : Nat) :
    Except Fault FieldLayout :=
  if block_pos : 0 < blockSize then
    if range : owned.start ≤ owned.stop ∧ owned.stop ≤ globalLength then
      match found : firstGhostFault? globalLength owned ghosts with
      | some fault => .error fault
      | none => .ok {
          globalLength, owned, ghosts, blockSize, block_pos
          start_le := range.1
          stop_le := range.2
          ghost_lt := fun i h => (ghosts_sound found i h).1
          ghost_not_owned := fun i h => (ghosts_sound found i h).2 }
    else .error .ownedRangeOutOfBounds
  else .error .emptyBlock

/-- The layout in which the rank owns every entry. -/
def whole (globalLength blockSize : Nat) : Except Fault FieldLayout :=
  make globalLength ⟨0, globalLength⟩ #[] blockSize

/-- Whether the rank owns an entry. -/
def Owns (layout : FieldLayout) (i : Nat) : Prop :=
  layout.owned.Contains i

instance (layout : FieldLayout) (i : Nat) : Decidable (layout.Owns i) :=
  inferInstanceAs (Decidable (layout.owned.Contains i))

theorem start_add_lt (layout : FieldLayout) {j : Nat} (h : j < layout.owned.length) :
    layout.owned.start + j < layout.globalLength := by
  have := layout.stop_le
  simp only [IndexRange.length] at h
  omega

/-- The nodes whose blocks the rank owns, by their numbers. -/
def nodes (layout : FieldLayout) : List Nat :=
  layout.owned.blocks layout.blockSize

end FieldLayout

end ImmersedBody
