import ImmersedBody.Field.Layout
import ImmersedBody.Mesh.Basic
import ImmersedBody.Ranks.Task

/-!
# Distribution of a mesh over ranks

Nodes are distributed in contiguous blocks: of `n` nodes, rank `r` of `p` owns those from `n r / p`
up to `n (r + 1) / p`.  A cell belongs to the rank that owns its lowest vertex, so that every cell
is integrated on exactly one rank.  The vertices of a rank's cells that other ranks own are its
ghost nodes.
-/

namespace ImmersedBody

/-- The block of `n` items that belongs to a rank. -/
def Seat.block (seat : Seat) (n : Nat) : IndexRange :=
  ⟨n * seat.rank / seat.size, n * (seat.rank + 1) / seat.size⟩

/-- The block that belongs to a rank, if words can hold what it is computed from. -/
def Seat.block? (seat : Seat) (n : Nat) : Except Fault IndexRange := do
  Fault.checkWord (n * (seat.rank + 1))
  return seat.block n

/-- The part of a mesh that belongs to one rank. -/
structure Partition where
  seat : Seat
  /-- The number of nodes of the whole mesh. -/
  nodeCount : Nat
  /-- The nodes that the rank owns. -/
  owned : IndexRange
  /-- The cells that are integrated on the rank, in ascending order. -/
  cells : List Nat
  /-- The nodes of these cells that other ranks own, in ascending order. -/
  ghosts : List Nat
deriving DecidableEq

namespace Partition

variable {α : Type} {shape : Shape}

/-- The numbers of the cells whose lowest vertex is in a range. -/
def cellsIn (mesh : Mesh shape α) (range : IndexRange) : List Nat :=
  (List.range mesh.cells.size).filter fun i =>
    match mesh.cells[i]? with
    | some cell => decide (range.Contains cell.lowest)
    | none => false

/-- The vertices of some cells, with repetitions. -/
def verticesOf (mesh : Mesh shape α) (cells : List Nat) : List Nat :=
  cells.flatMap fun i =>
    match mesh.cells[i]? with
    | some cell => cell.toList
    | none => []

/-- The part of a mesh that belongs to a rank. -/
def ofMesh (mesh : Mesh shape α) (seat : Seat) : Partition :=
  let owned := seat.block mesh.vertices.size
  let cells := cellsIn mesh owned
  let foreign := (verticesOf mesh cells).filter fun node => !decide (owned.Contains node)
  { seat := seat
    nodeCount := mesh.vertices.size
    owned := owned
    cells := cells
    ghosts := (List.range mesh.vertices.size).filter (foreign.contains ·) }

/-- The part of a mesh that belongs to a rank, if words can hold what its block is computed from. -/
def ofMesh? (mesh : Mesh shape α) (seat : Seat) : Except Fault Partition := do
  let _ ← seat.block? mesh.vertices.size
  return ofMesh mesh seat

/--
The layout of a field with so many values per node: value `d` of node `n` has the number
`n * blockSize + d`.
-/
def layout (partition : Partition) (blockSize : Nat) : Except Fault FieldLayout :=
  FieldLayout.make (partition.nodeCount * blockSize)
    ⟨partition.owned.start * blockSize, partition.owned.stop * blockSize⟩
    (partition.ghosts.flatMap fun node =>
      (List.range blockSize).map fun d => node * blockSize + d).toArray
    blockSize

/--
The layout of a field with so many values per node, if words can hold the numbers of the values and
the ghosts among them can be looked up.  The list of these ghosts takes less memory than that, even
with the room that is left in it.
-/
def layout? (partition : Partition) (blockSize : Nat) : Except Fault FieldLayout := do
  Fault.checkWord (partition.nodeCount * blockSize)
  Fault.checkTable (partition.ghosts.length * blockSize)
  partition.layout blockSize

end Partition

end ImmersedBody
