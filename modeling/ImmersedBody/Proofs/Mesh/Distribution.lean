import ImmersedBody.Mesh.Partition
import ImmersedBody.Proofs.Ranks.Together
import Mathlib.Data.List.Nodup
import Mathlib.Data.List.Range

/-!
# A mesh on all ranks of a cluster

The blocks of the ranks follow each other without gaps, so that every node and
every cell belongs to exactly one rank.  A rank can reach all nodes of its cells,
as nodes of its own or as ghosts.

The layout of a field with one block of values per node is always sound.  Its
entries are owned or ghosted exactly when the nodes are.
-/

namespace ImmersedBody

variable {α : Type} {shape : Shape} {p : Nat}

/-! ## Blocks -/

namespace Seat

theorem start_block_le_stop (seat : Seat) (n : Nat) : (seat.block n).start ≤ (seat.block n).stop :=
  Nat.div_le_div_right (Nat.mul_le_mul_left n (Nat.le_succ seat.rank))

theorem stop_block_le (seat : Seat) (n : Nat) : (seat.block n).stop ≤ n := by
  have bound : n * (seat.rank + 1) ≤ n * seat.size := Nat.mul_le_mul_left n seat.rank_lt
  have positive : 0 < seat.size := Nat.zero_lt_of_lt seat.rank_lt
  calc n * (seat.rank + 1) / seat.size
      ≤ n * seat.size / seat.size := Nat.div_le_div_right bound
    _ = n := Nat.mul_div_cancel n positive

/-- A single rank owns everything. -/
theorem contains_block_of_single {seat : Seat} (single : seat.size = 1) {n i : Nat}
    (inside : i < n) : (seat.block n).Contains i := by
  have first : seat.rank = 0 := by
    have below := seat.rank_lt
    omega
  simp [Seat.block, single, first, IndexRange.Contains, inside]

/-- The end of a block is the beginning of the next one, so every item is in some block. -/
theorem exists_block {n i : Nat} (someone : 0 < p) (inside : i < n) :
    ∃ rank : Fin p, ((Seat.of rank).block n).Contains i := by
  have cut : ∀ ranks, i < n * ranks / p → ∃ rank < ranks, n * rank / p ≤ i ∧
      i < n * (rank + 1) / p := by
    intro ranks
    induction ranks with
    | zero =>
        intro below
        simp at below
    | succ ranks ih =>
        intro below
        by_cases earlier : i < n * ranks / p
        · rcases ih earlier with ⟨rank, inRange, holds⟩
          exact ⟨rank, Nat.lt_succ_of_lt inRange, holds⟩
        · exact ⟨ranks, Nat.lt_succ_self ranks, Nat.le_of_not_lt earlier, below⟩
  rcases cut p (by rw [Nat.mul_div_cancel n someone]; exact inside) with ⟨rank, inRange, holds⟩
  exact ⟨⟨rank, inRange⟩, holds⟩

/-- No item is in the blocks of two ranks. -/
theorem eq_of_contains {n i : Nat} {rank other : Fin p}
    (here : ((Seat.of rank).block n).Contains i) (there : ((Seat.of other).block n).Contains i) :
    rank = other := by
  have apart : ∀ {first second : Fin p}, first.val < second.val →
      i < n * (first.val + 1) / p → ¬ n * second.val / p ≤ i := by
    intro first second before below above
    have ordered : n * (first.val + 1) / p ≤ n * second.val / p :=
      Nat.div_le_div_right (Nat.mul_le_mul_left n before)
    omega
  rcases Nat.lt_trichotomy rank.val other.val with before | same | after
  · exact absurd there.1 (apart before here.2)
  · exact Fin.ext same
  · exact absurd here.1 (apart after there.2)

end Seat

/-- Sound ranges make a layout. -/
theorem FieldLayout.exists_make {globalLength blockSize : Nat} {owned : IndexRange}
    {ghosts : Array Nat} (positive : 0 < blockSize) (start_le : owned.start ≤ owned.stop)
    (stop_le : owned.stop ≤ globalLength)
    (sound : firstGhostFault? globalLength owned ghosts = none) :
    ∃ layout, make globalLength owned ghosts blockSize = .ok layout ∧
      layout.globalLength = globalLength ∧ layout.owned = owned ∧ layout.ghosts = ghosts ∧
        layout.blockSize = blockSize := by
  rw [make, dif_pos positive, dif_pos ⟨start_le, stop_le⟩]
  split
  · next fault found =>
      rw [sound] at found
      cases found
  · exact ⟨_, rfl, rfl, rfl, rfl, rfl⟩

theorem Team.seat_size_none : (Team.seat (none : Team p)).size = 1 :=
  rfl

/-! ## Cells -/

/-- No vertex of a cell is below the lowest one. -/
theorem Cell.lowest_le {cell : Cell shape} {vertex : Nat} (member : vertex ∈ cell.toList) :
    cell.lowest ≤ vertex := by
  have least : ∀ (numbers : List Nat) (start : Nat),
      numbers.foldl min start ≤ start ∧ ∀ number ∈ numbers, numbers.foldl min start ≤ number := by
    intro numbers
    induction numbers with
    | nil =>
        exact fun start => ⟨Nat.le_refl start, fun _ absent => nomatch absent⟩
    | cons number numbers ih =>
        intro start
        rcases ih (min start number) with ⟨below, others⟩
        refine ⟨Nat.le_trans below (Nat.min_le_left start number), ?_⟩
        intro other among
        rcases List.mem_cons.mp among with rfl | later
        · exact Nat.le_trans below (Nat.min_le_right start other)
        · exact others other later
  rw [Cell.lowest, ← Vector.foldl_toArray, ← Array.foldl_toList]
  exact (least _ _).2 vertex member

theorem Cell.lowest_lt {cell : Cell shape} {vertices : Nat} (inBounds : cell.InBounds vertices) :
    cell.lowest < vertices := by
  have first : cell.get ⟨0, shape.nodeCount_pos⟩ ∈ cell.toList := by simp [Vector.get]
  exact Nat.lt_of_le_of_lt (lowest_le first) (inBounds 0 shape.nodeCount_pos)

namespace Partition

variable {mesh : Mesh shape α} {seat : Seat} {number node : Nat}

theorem mem_cellsIn {range : IndexRange} :
    number ∈ cellsIn mesh range ↔
      ∃ inside : number < mesh.cells.size, range.Contains mesh.cells[number].lowest := by
  simp only [cellsIn, List.mem_filter, List.mem_range]
  constructor
  · rintro ⟨inside, found⟩
    rw [Array.getElem?_eq_getElem inside] at found
    exact ⟨inside, of_decide_eq_true found⟩
  · rintro ⟨inside, found⟩
    rw [Array.getElem?_eq_getElem inside]
    exact ⟨inside, decide_eq_true found⟩

theorem mem_cells :
    number ∈ (ofMesh mesh seat).cells ↔
      ∃ inside : number < mesh.cells.size,
        (seat.block mesh.vertices.size).Contains mesh.cells[number].lowest :=
  mem_cellsIn

/-- A single rank has all cells. -/
theorem cells_of_single (single : seat.size = 1) :
    (ofMesh mesh seat).cells = List.range mesh.cells.size := by
  apply List.filter_eq_self.mpr
  intro number member
  have inside := List.mem_range.mp member
  have lowest := Cell.lowest_lt (mesh.inBounds number inside)
  rw [Array.getElem?_eq_getElem inside]
  exact decide_eq_true (Seat.contains_block_of_single single lowest)

/-- Every cell belongs to exactly one rank. -/
theorem perm_cells (mesh : Mesh shape α) (someone : 0 < p) :
    ((List.finRange p).flatMap fun rank => (ofMesh mesh (.of rank)).cells).Perm
      (List.range mesh.cells.size) := by
  have apart : ((List.finRange p).flatMap fun rank => (ofMesh mesh (.of rank)).cells).Nodup := by
    rw [List.nodup_flatMap]
    refine ⟨fun rank _ => List.nodup_range.filter _, ?_⟩
    apply (List.nodup_finRange p).imp
    intro rank other different
    show List.Disjoint _ _
    rw [List.disjoint_left]
    intro number here there
    rcases mem_cells.mp here with ⟨_, holds⟩
    rcases mem_cells.mp there with ⟨_, holds'⟩
    exact different (Seat.eq_of_contains holds holds')
  rw [List.perm_ext_iff_of_nodup apart List.nodup_range]
  intro number
  rw [List.mem_flatMap, List.mem_range]
  constructor
  · rintro ⟨rank, -, member⟩
    exact (mem_cells.mp member).1
  · intro inside
    rcases Seat.exists_block someone (Cell.lowest_lt (mesh.inBounds number inside)) with
      ⟨rank, holds⟩
    exact ⟨rank, List.mem_finRange rank, mem_cells.mpr ⟨inside, holds⟩⟩

/-! ## Nodes -/

/-- The rank can reach the values of a node. -/
def Reaches (partition : Partition) (node : Nat) : Prop :=
  partition.owned.Contains node ∨ node ∈ partition.ghosts

theorem mem_verticesOf {cells : List Nat} (member : number ∈ cells)
    (inside : number < mesh.cells.size) {i : Nat} (bound : i < shape.nodeCount) :
    mesh.cells[number][i] ∈ verticesOf mesh cells := by
  rw [verticesOf, List.mem_flatMap]
  refine ⟨number, member, ?_⟩
  rw [Array.getElem?_eq_getElem inside]
  simp

/-- A rank can reach all nodes of its cells. -/
theorem reaches_of_mem_cells (member : number ∈ (ofMesh mesh seat).cells)
    (inside : number < mesh.cells.size) {i : Nat} (bound : i < shape.nodeCount) :
    (ofMesh mesh seat).Reaches mesh.cells[number][i] := by
  by_cases own : (seat.block mesh.vertices.size).Contains mesh.cells[number][i]
  · exact Or.inl own
  · right
    have vertex := mem_verticesOf member inside bound
    simp only [ofMesh, List.mem_filter, List.mem_range, List.contains_iff_mem, Bool.not_eq_true',
      decide_eq_false_iff_not]
    exact ⟨mesh.inBounds number inside i bound, vertex, own⟩

theorem of_mem_ghosts (ghost : node ∈ (ofMesh mesh seat).ghosts) :
    node < mesh.vertices.size ∧ ¬ (seat.block mesh.vertices.size).Contains node := by
  simp only [ofMesh, List.mem_filter, List.mem_range, List.contains_iff_mem, Bool.not_eq_true',
    decide_eq_false_iff_not] at ghost
  exact ⟨ghost.1, ghost.2.2⟩

/-! ## Layouts -/

/-- The number of an entry tells its node. -/
theorem div_of_place_lt (node : Nat) {blockSize place : Nat} (below : place < blockSize) :
    (node * blockSize + place) / blockSize = node := by
  rw [Nat.add_comm, Nat.add_mul_div_right _ _ (Nat.zero_lt_of_lt below), Nat.div_eq_of_lt below,
    Nat.zero_add]

/-- A number in a range of blocks belongs to a block in the range. -/
theorem contains_mul_iff {range : IndexRange} {blockSize place : Nat} (below : place < blockSize) :
    IndexRange.Contains ⟨range.start * blockSize, range.stop * blockSize⟩
      (node * blockSize + place) ↔ range.Contains node := by
  have within := div_of_place_lt node below
  have positive : 0 < blockSize := Nat.zero_lt_of_lt below
  constructor
  · rintro ⟨low, high⟩
    rw [← within]
    exact ⟨(Nat.le_div_iff_mul_le positive).mpr low, (Nat.div_lt_iff_lt_mul positive).mpr high⟩
  · rintro ⟨low, high⟩
    constructor
    · exact Nat.le_trans (Nat.mul_le_mul_right blockSize low) (Nat.le_add_right _ _)
    · have next : (node + 1) * blockSize ≤ range.stop * blockSize := Nat.mul_le_mul_right _ high
      rw [Nat.add_mul, Nat.one_mul] at next
      show node * blockSize + place < range.stop * blockSize
      omega

/-- The layout for the nodes of a partition. -/
structure LaidOut (partition : Partition) (blockSize : Nat) (layout : FieldLayout) : Prop where
  globalLength : layout.globalLength = partition.nodeCount * blockSize
  owned : layout.owned = ⟨partition.owned.start * blockSize, partition.owned.stop * blockSize⟩
  ghosts : layout.ghosts = (partition.ghosts.flatMap fun node =>
    (List.range blockSize).map fun place => node * blockSize + place).toArray
  blockSize_eq : layout.blockSize = blockSize

/-- The nodes of a mesh can always be laid out. -/
theorem exists_layout (mesh : Mesh shape α) (seat : Seat) {blockSize : Nat}
    (positive : 0 < blockSize) :
    ∃ layout, (ofMesh mesh seat).layout blockSize = .ok layout ∧
      (ofMesh mesh seat).LaidOut blockSize layout := by
  have sound : FieldLayout.firstGhostFault? (mesh.vertices.size * blockSize)
      ⟨(seat.block mesh.vertices.size).start * blockSize,
        (seat.block mesh.vertices.size).stop * blockSize⟩
      ((ofMesh mesh seat).ghosts.flatMap fun node =>
        (List.range blockSize).map fun place => node * blockSize + place).toArray = none := by
    rw [FieldLayout.firstGhostFault?, List.findSome?_eq_none_iff]
    intro entry member
    rcases List.mem_flatMap.mp member with ⟨node, ghost, inNode⟩
    rcases List.mem_map.mp inNode with ⟨place, below, rfl⟩
    have below := List.mem_range.mp below
    rcases of_mem_ghosts ghost with ⟨inside, foreign⟩
    rw [FieldLayout.ghostFault?_eq_none_iff, contains_mul_iff below]
    refine ⟨?_, foreign⟩
    have next : (node + 1) * blockSize ≤ mesh.vertices.size * blockSize :=
      Nat.mul_le_mul_right _ inside
    rw [Nat.add_mul, Nat.one_mul] at next
    omega
  rcases FieldLayout.exists_make positive
      (Nat.mul_le_mul_right _ (seat.start_block_le_stop _))
      (Nat.mul_le_mul_right _ (seat.stop_block_le _)) sound with
    ⟨layout, made, globalLength, owned, ghosts, blockSize_eq⟩
  exact ⟨layout, made, globalLength, owned, ghosts, blockSize_eq⟩

theorem laidOut_of_layout {blockSize : Nat} {layout : FieldLayout}
    (made : (ofMesh mesh seat).layout blockSize = .ok layout) :
    (ofMesh mesh seat).LaidOut blockSize layout := by
  rcases Nat.eq_zero_or_pos blockSize with rfl | positive
  · rw [Partition.layout, FieldLayout.make, dif_neg (Nat.lt_irrefl 0)] at made
    cases made
  · rcases exists_layout mesh seat positive with ⟨found, same, laidOut⟩
    rw [made, Except.ok.injEq] at same
    rw [same]
    exact laidOut

namespace LaidOut

variable {partition : Partition} {blockSize place : Nat} {layout : FieldLayout}

theorem positive (laidOut : partition.LaidOut blockSize layout) : 0 < blockSize :=
  laidOut.blockSize_eq ▸ layout.block_pos

/-- The rank owns the entries of the nodes that it owns. -/
theorem owns_iff (laidOut : partition.LaidOut blockSize layout) (below : place < blockSize) :
    layout.Owns (node * blockSize + place) ↔ partition.owned.Contains node := by
  rw [FieldLayout.Owns, laidOut.owned, contains_mul_iff below]

/-- The rank has copies of the entries of its ghost nodes. -/
theorem mem_ghosts_iff (laidOut : partition.LaidOut blockSize layout) (below : place < blockSize) :
    node * blockSize + place ∈ layout.ghosts ↔ node ∈ partition.ghosts := by
  rw [laidOut.ghosts, List.mem_toArray, List.mem_flatMap]
  constructor
  · rintro ⟨other, ghost, inNode⟩
    rcases List.mem_map.mp inNode with ⟨otherPlace, inRange, same⟩
    rw [← div_of_place_lt node below, ← same, div_of_place_lt other (List.mem_range.mp inRange)]
    exact ghost
  · intro ghost
    exact ⟨node, ghost, List.mem_map.mpr ⟨place, List.mem_range.mpr below, rfl⟩⟩

theorem mem_nodes (laidOut : partition.LaidOut blockSize layout) (positive : 0 < blockSize) :
    node ∈ layout.nodes ↔ partition.owned.Contains node := by
  rw [FieldLayout.nodes, IndexRange.blocks, laidOut.owned, laidOut.blockSize_eq,
    Nat.mul_div_cancel _ positive, Nat.mul_div_cancel _ positive, List.mem_range'_1,
    IndexRange.Contains]
  omega

end LaidOut

/-- The rank that works alone owns all entries. -/
theorem LaidOut.owns_of_single {blockSize : Nat} {layout : FieldLayout} (single : seat.size = 1)
    (laidOut : (ofMesh mesh seat).LaidOut blockSize layout) {entry : Nat}
    (inside : entry < layout.globalLength) : layout.Owns entry := by
  have positive := laidOut.positive
  rw [laidOut.globalLength] at inside
  have node_lt : entry / blockSize < mesh.vertices.size :=
    (Nat.div_lt_iff_lt_mul positive).mpr inside
  rw [← Nat.div_add_mod' entry blockSize, laidOut.owns_iff (Nat.mod_lt entry positive)]
  exact Seat.contains_block_of_single single node_lt

/-- Every entry is owned by exactly one rank. -/
theorem exists_owner {blockSize : Nat} {layouts : Fin p → FieldLayout} (someone : 0 < p)
    (laidOut : ∀ rank, (ofMesh mesh (.of rank)).LaidOut blockSize (layouts rank)) {entry : Nat}
    (inside : entry < mesh.vertices.size * blockSize) :
    ∃ rank, (layouts rank).Owns entry ∧ ∀ other, (layouts other).Owns entry → other = rank := by
  have positive := (laidOut ⟨0, someone⟩).positive
  have node_lt : entry / blockSize < mesh.vertices.size :=
    (Nat.div_lt_iff_lt_mul positive).mpr inside
  have place_lt : entry % blockSize < blockSize := Nat.mod_lt entry positive
  rcases Seat.exists_block someone node_lt with ⟨rank, holds⟩
  rw [← Nat.div_add_mod' entry blockSize]
  refine ⟨rank, ((laidOut rank).owns_iff place_lt).mpr holds, ?_⟩
  intro other owns
  exact Seat.eq_of_contains (((laidOut other).owns_iff place_lt).mp owns) holds

end Partition

end ImmersedBody
