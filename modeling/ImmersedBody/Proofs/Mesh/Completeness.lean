import ImmersedBody.Proofs.Mesh.Distribution
import ImmersedBody.Proofs.Field.Access

/-!
# Complete partitions

The partitions of a mesh, one for each rank of a cluster, lose no node and no cell
and count none twice.  The blocks of nodes follow each other and are as even as
whole numbers allow, also when there are more ranks than nodes.

A partition is closed under the vertices of its cells: the rank owns a vertex, or
has it as a ghost.  A cell belongs to the owner of its lowest vertex, so ghosts come
from higher ranks only.  Layouts repeat all of this entry by entry, with so many
entries for each node.

The main result is `Partition.exists_distribution`.
-/

namespace ImmersedBody

variable {α : Type} {shape : Shape} {p : Nat}

/-! ## Even blocks -/

/-- The ranges of the ranks follow each other from zero to an end, in pieces of almost one length. -/
structure Tiles (n : Nat) (ranges : Fin p → IndexRange) : Prop where
  first : ∀ rank : Fin p, rank.val = 0 → (ranges rank).start = 0
  forward : ∀ rank, (ranges rank).start ≤ (ranges rank).stop
  next : ∀ rank other : Fin p, other.val = rank.val + 1 → (ranges other).start = (ranges rank).stop
  last : ∀ rank : Fin p, rank.val + 1 = p → (ranges rank).stop = n
  even : ∀ rank other, (ranges rank).length ≤ (ranges other).length + 1

namespace Seat

/-- A block has as many items as an even share has, rounded down, or one more. -/
theorem length_block (seat : Seat) (n : Nat) :
    n / seat.size ≤ (seat.block n).length ∧ (seat.block n).length ≤ n / seat.size + 1 := by
  have positive : 0 < seat.size := Nat.zero_lt_of_lt seat.rank_lt
  have stop_eq : (n * seat.rank + n) / seat.size = n * seat.rank / seat.size + n / seat.size +
      if seat.size ≤ n * seat.rank % seat.size + n % seat.size then 1 else 0 :=
    Nat.add_div positive
  have length_eq : (seat.block n).length =
      (n * seat.rank + n) / seat.size - n * seat.rank / seat.size := rfl
  rw [length_eq, stop_eq, Nat.add_assoc, Nat.add_sub_cancel_left]
  constructor
  · exact Nat.le_add_right _ _
  · split
    · exact Nat.le_refl _
    · exact Nat.le_succ _

/-- The blocks of all ranks tile the items. -/
theorem tiles_block (n : Nat) : Tiles n fun rank : Fin p => (Seat.of rank).block n := by
  constructor
  · intro rank first
    have start_eq : ((Seat.of rank).block n).start = n * rank.val / p := rfl
    rw [start_eq, first, Nat.mul_zero, Nat.zero_div]
  · exact fun rank => start_block_le_stop (.of rank) n
  · intro rank other following
    have start_eq : ((Seat.of other).block n).start = n * other.val / p := rfl
    rw [start_eq, following]
    rfl
  · intro rank last
    have stop_eq : ((Seat.of rank).block n).stop = n * (rank.val + 1) / p := rfl
    rw [stop_eq, last, Nat.mul_div_cancel n (Nat.zero_lt_of_lt rank.isLt)]
  · intro rank other
    have here : ((Seat.of rank).block n).length ≤ n / p + 1 := (length_block (.of rank) n).2
    have there : n / p ≤ ((Seat.of other).block n).length := (length_block (.of other) n).1
    omega

/-- What a block is computed from fits into a word if it does for the last rank. -/
theorem block?_eq_ok {n : Nat} (fits : n * p < wordCount) (rank : Fin p) :
    (Seat.of rank).block? n = .ok ((Seat.of rank).block n) := by
  have bound : n * ((Seat.of rank).rank + 1) ≤ n * p := Nat.mul_le_mul_left n rank.isLt
  rw [block?, Fault.checkWord, if_pos (Nat.lt_of_le_of_lt bound fits)]
  rfl

end Seat

/-! ## Vertices of cells -/

namespace Partition

variable {mesh : Mesh shape α} {seat : Seat} {node : Nat}

/-- One of some cells has the node as a vertex. -/
def IsVertexOf (mesh : Mesh shape α) (cells : List Nat) (node : Nat) : Prop :=
  ∃ number ∈ cells, ∃ inside : number < mesh.cells.size, node ∈ mesh.cells[number].toList

theorem mem_verticesOf_iff {cells : List Nat} :
    node ∈ verticesOf mesh cells ↔ IsVertexOf mesh cells node := by
  rw [verticesOf, List.mem_flatMap]
  constructor
  · rintro ⟨number, member, vertex⟩
    split at vertex
    · next cell found =>
        rcases Array.getElem?_eq_some_iff.mp found with ⟨inside, rfl⟩
        exact ⟨number, member, inside, vertex⟩
    · cases vertex
  · rintro ⟨number, member, inside, vertex⟩
    refine ⟨number, member, ?_⟩
    rw [Array.getElem?_eq_getElem inside]
    exact vertex

theorem lt_of_isVertexOf {cells : List Nat} (vertex : IsVertexOf mesh cells node) :
    node < mesh.vertices.size := by
  rcases vertex with ⟨number, -, inside, member⟩
  rcases List.mem_iff_getElem.mp member with ⟨i, bound, rfl⟩
  have inCell : i < shape.nodeCount := by simpa using bound
  have below := mesh.inBounds number inside i inCell
  simpa using below

/-! ## Ghosts -/

/-- The ghosts of a partition are what its cells need from higher ranks. -/
structure GhostClosed (mesh : Mesh shape α) (partition : Partition) : Prop where
  ascending : partition.ghosts.Pairwise (· < ·)
  mem_iff : ∀ node, node ∈ partition.ghosts ↔
    ¬ partition.owned.Contains node ∧ IsVertexOf mesh partition.cells node
  above : ∀ node ∈ partition.ghosts, partition.owned.stop ≤ node

/-- Vertices of a rank's cells are not below the nodes that it owns. -/
theorem start_le_of_isVertexOf (vertex : IsVertexOf mesh (ofMesh mesh seat).cells node) :
    (ofMesh mesh seat).owned.start ≤ node := by
  rcases vertex with ⟨number, member, inside, inCell⟩
  rcases mem_cells.mp member with ⟨_, lowest⟩
  exact Nat.le_trans lowest.1 (Cell.lowest_le inCell)

theorem ghostClosed_ofMesh (mesh : Mesh shape α) (seat : Seat) :
    GhostClosed mesh (ofMesh mesh seat) := by
  have mem_iff : ∀ node, node ∈ (ofMesh mesh seat).ghosts ↔
      ¬ (ofMesh mesh seat).owned.Contains node ∧
        IsVertexOf mesh (ofMesh mesh seat).cells node := by
    intro node
    simp only [ofMesh, List.mem_filter, List.mem_range, List.contains_iff_mem, Bool.not_eq_true',
      decide_eq_false_iff_not, mem_verticesOf_iff]
    constructor
    · rintro ⟨-, vertex, foreign⟩
      exact ⟨foreign, vertex⟩
    · rintro ⟨foreign, vertex⟩
      exact ⟨lt_of_isVertexOf vertex, vertex, foreign⟩
  refine { ascending := ?_, mem_iff := mem_iff, above := ?_ }
  · exact List.pairwise_lt_range.filter _
  · intro node ghost
    rcases (mem_iff node).mp ghost with ⟨foreign, vertex⟩
    by_contra below
    exact foreign ⟨start_le_of_isVertexOf vertex, Nat.lt_of_not_le below⟩

/-! ## Entries -/

/-- The entries of a layout are owned and ghosted as the nodes of a partition are. -/
structure FollowsNodes (mesh : Mesh shape α) (partition : Partition) (blockSize : Nat)
    (layout : FieldLayout) : Prop where
  globalLength : layout.globalLength = mesh.vertices.size * blockSize
  blockSize_eq : layout.blockSize = blockSize
  owns_iff : ∀ node, ∀ place < blockSize,
    layout.Owns (node * blockSize + place) ↔ partition.owned.Contains node
  ghosted_iff : ∀ node, ∀ place < blockSize,
    node * blockSize + place ∈ layout.ghosts ↔ node ∈ partition.ghosts
  reached : ∀ node, IsVertexOf mesh partition.cells node → ∀ place < blockSize,
    layout.Owns (node * blockSize + place) ∨ node * blockSize + place ∈ layout.ghosts

/-- What can be reached of a node can be read, as soon as the ghosts are up to date. -/
theorem FollowsNodes.exists_node {partition : Partition} {blockSize count : Nat}
    {layout : FieldLayout} (follows : FollowsNodes mesh partition blockSize layout) {β : Type}
    {field : NodalField β} (laidOut : field.layout = layout) (fresh : field.synchronized = true)
    (vertex : IsVertexOf mesh partition.cells node) (within : count ≤ blockSize) :
    ∃ values, field.node count node = .ok values := by
  apply exists_mapM
  intro place member
  have below := Nat.lt_of_lt_of_le (List.mem_range.mp member) within
  have readable : ∃ value, field.get (node * blockSize + place) = .ok value := by
    rcases follows.reached node vertex place below with owns | ghost
    · rw [← laidOut] at owns
      rcases NodalField.get_of_owns owns with ⟨_, found⟩
      exact ⟨_, found⟩
    · rw [← laidOut] at ghost
      exact NodalField.exists_get_of_mem fresh ghost
  rcases readable with ⟨value, found⟩
  refine ⟨value, ?_⟩
  rw [NodalField.nodeEntry, laidOut, follows.blockSize_eq, found]
  rfl

theorem LaidOut.followsNodes {blockSize : Nat} {layout : FieldLayout}
    (laidOut : (ofMesh mesh seat).LaidOut blockSize layout) :
    FollowsNodes mesh (ofMesh mesh seat) blockSize layout := by
  refine {
    globalLength := laidOut.globalLength
    blockSize_eq := laidOut.blockSize_eq
    owns_iff := fun _ _ below => laidOut.owns_iff below
    ghosted_iff := fun _ _ below => laidOut.mem_ghosts_iff below
    reached := ?_ }
  intro node vertex place below
  rw [laidOut.owns_iff below, laidOut.mem_ghosts_iff below]
  by_cases own : (ofMesh mesh seat).owned.Contains node
  · exact Or.inl own
  · exact Or.inr (((ghostClosed_ofMesh mesh seat).mem_iff node).mpr ⟨own, vertex⟩)

/-! ## All ranks -/

/-- The limits under which the layout of a partition can be made. -/
theorem layout?_eq_ok_iff {partition : Partition} {blockSize : Nat} {layout : FieldLayout} :
    partition.layout? blockSize = .ok layout ↔
      partition.nodeCount * blockSize < wordCount ∧
        partition.ghosts.length * blockSize ≤ 0x380000000000000 ∧
          partition.layout blockSize = .ok layout := by
  simp only [layout?, bind_eq_ok_iff, Fault.checkWord_eq_ok_iff, Fault.checkTable_eq_ok_iff,
    fitsInTable_iff, exists_and_left, exists_const]

/-- The partitions of all ranks make up the mesh. -/
structure Distributes (mesh : Mesh shape α) (parts : Fin p → Partition) : Prop where
  tiles : Tiles mesh.vertices.size fun rank => (parts rank).owned
  oneRank : ∀ number < mesh.cells.size, ∃! rank, number ∈ (parts rank).cells
  cells_lt : ∀ rank, ∀ number ∈ (parts rank).cells, number < mesh.cells.size
  ascending : ∀ rank, (parts rank).cells.Pairwise (· < ·)
  closed : ∀ rank, GhostClosed mesh (parts rank)
  laidOut : ∀ rank blockSize, 0 < blockSize → mesh.vertices.size * blockSize < wordCount →
    (parts rank).ghosts.length * blockSize ≤ 0x380000000000000 →
      ∃ layout, (parts rank).layout? blockSize = .ok layout ∧
        FollowsNodes mesh (parts rank) blockSize layout
  refused : ∀ rank blockSize, wordCount ≤ mesh.vertices.size * blockSize ∨
    0x380000000000000 < (parts rank).ghosts.length * blockSize →
      ∃ fault, (parts rank).layout? blockSize = .error fault

theorem distributes_ofMesh (mesh : Mesh shape α) (someone : 0 < p) :
    Distributes mesh fun rank : Fin p => ofMesh mesh (.of rank) := by
  constructor
  · exact Seat.tiles_block mesh.vertices.size
  · intro number inside
    rcases Seat.exists_block someone (Cell.lowest_lt (mesh.inBounds number inside)) with
      ⟨rank, holds⟩
    refine ⟨rank, mem_cells.mpr ⟨inside, holds⟩, ?_⟩
    intro other member
    rcases mem_cells.mp member with ⟨_, holdsThere⟩
    exact Seat.eq_of_contains holdsThere holds
  · intro rank number member
    exact (mem_cells.mp member).1
  · exact fun rank => List.pairwise_lt_range.filter _
  · exact fun rank => ghostClosed_ofMesh mesh (.of rank)
  · intro rank blockSize positive words table
    rcases exists_layout mesh (.of rank) positive with ⟨layout, made, laidOut⟩
    exact ⟨layout, layout?_eq_ok_iff.mpr ⟨words, table, made⟩, laidOut.followsNodes⟩
  · intro rank blockSize beyond
    cases made : (ofMesh mesh (.of rank)).layout? blockSize with
    | error fault =>
        exact ⟨fault, rfl⟩
    | ok layout =>
        rcases layout?_eq_ok_iff.mp made with ⟨words, table, -⟩
        exact absurd beyond (not_or.mpr ⟨not_le.mpr words, not_lt.mpr table⟩)

/--
The partitions of a mesh can be made for all ranks.  They lose nothing, count nothing twice, and
every rank reaches the vertices of its cells.  Their layouts can be made within the limits of words
and of memory.
-/
theorem exists_distribution (mesh : Mesh shape α) (someone : 0 < p)
    (fits : mesh.vertices.size * p < wordCount) :
    ∃ parts : Fin p → Partition, (∀ rank, ofMesh? mesh (.of rank) = .ok (parts rank)) ∧
      Distributes mesh parts ∧
      ∀ rank blockSize layout, (parts rank).layout? blockSize = .ok layout →
        ∀ field : NodalField α, field.layout = layout → field.synchronized = true →
          ∀ node, IsVertexOf mesh (parts rank).cells node →
            ∃ values, field.node blockSize node = .ok values := by
  have distributes := distributes_ofMesh mesh someone
  refine ⟨fun rank => ofMesh mesh (.of rank), ?_, distributes, ?_⟩
  · intro rank
    rw [ofMesh?, Seat.block?_eq_ok fits rank]
    rfl
  · intro rank blockSize layout made field laidOut fresh node vertex
    have follows := (laidOut_of_layout (layout?_eq_ok_iff.mp made).2.2).followsNodes
    exact follows.exists_node laidOut fresh vertex (Nat.le_refl _)

/-- Two triangles with a common edge. -/
def twoTriangles : Mesh .triangle Int where
  vertices := #[⟨0, 0, 0⟩, ⟨1, 0, 0⟩, ⟨0, 1, 0⟩, ⟨1, 1, 0⟩]
  cells := #[⟨#[1, 0, 2], rfl⟩, ⟨#[1, 2, 3], rfl⟩]
  inBounds := by decide

/--
Six ranks share the four nodes and the two cells; the first rank owns no node.  There is a layout
with three entries for each node.
-/
theorem twoTriangles_distributed :
    0 < 6 ∧ twoTriangles.vertices.size * 6 < wordCount ∧
      ∃ parts : Fin 6 → Partition, (∀ rank, ofMesh? twoTriangles (.of rank) = .ok (parts rank)) ∧
        Distributes twoTriangles parts ∧
        ∀ rank, ∃ layout, (parts rank).layout? 3 = .ok layout ∧
          FollowsNodes twoTriangles (parts rank) 3 layout ∧
          ∀ field : NodalField Int, field.layout = layout → field.synchronized = true →
            ∀ node, IsVertexOf twoTriangles (parts rank).cells node →
              ∃ values, field.node 3 node = .ok values := by
  refine ⟨by decide, by decide, ?_⟩
  rcases exists_distribution twoTriangles (p := 6) (by decide) (by decide) with
    ⟨parts, made, distributes, reads⟩
  refine ⟨parts, made, distributes, ?_⟩
  intro rank
  have few : ∀ rank : Fin 6,
      (ofMesh twoTriangles (.of rank)).ghosts.length * 3 ≤ 0x380000000000000 := by
    decide
  have same : parts rank = ofMesh twoTriangles (.of rank) := by
    have known := made rank
    rw [ofMesh?, Seat.block?_eq_ok (by decide)] at known
    exact (Except.ok.inj known).symm
  rcases distributes.laidOut rank 3 (by decide) (by decide) (same ▸ few rank) with
    ⟨layout, found, follows⟩
  exact ⟨layout, found, follows, reads rank 3 layout found⟩

/--
The first of two ranks owns two nodes and has the other two as ghosts.  Words cannot number the
entries if there are too many for each node, and before that memory cannot hold the ghosts.
-/
theorem layout_of_twoTriangles_refused :
    twoTriangles.vertices.size * 2 < wordCount ∧
      ∃ part, ofMesh? twoTriangles (.of (0 : Fin 2)) = .ok part ∧
        part.layout? 0x4000000000000000 = .error .numberTooLarge ∧
          part.layout? 0x1000000000000000 = .error .tooManyItems := by
  have nodes : (ofMesh twoTriangles (.of (0 : Fin 2))).nodeCount = 4 := rfl
  have ghosts : (ofMesh twoTriangles (.of (0 : Fin 2))).ghosts.length = 2 := by
    decide
  have counted : Fault.checkWord (4 * 0x1000000000000000) = .ok () := by
    decide
  have uncounted : Fault.checkWord (4 * 0x4000000000000000) = .error .numberTooLarge := by
    decide
  have full : Fault.checkTable (2 * 0x1000000000000000) = .error .tooManyItems := by
    decide +kernel
  refine ⟨by decide, _, rfl, ?_, ?_⟩
  · rw [layout?, nodes, uncounted]
    rfl
  · rw [layout?, nodes, counted, ghosts, full]
    rfl

end Partition

end ImmersedBody
