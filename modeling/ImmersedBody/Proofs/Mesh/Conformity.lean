import Mathlib.Data.List.ProdSigma
import ImmersedBody.Proofs.Element.Tetrahedron
import ImmersedBody.Proofs.Mesh.Kuhn
import ImmersedBody.Proofs.Outcomes
import ImmersedBody.Rigid.Motion

/-!
# Conforming meshes of boxes

A mesh of tetrahedra conforms to a box if the tetrahedra are oriented, their volumes add up to the
volume of the box, and every face belongs to exactly two of them, or to one if the face lies in a
side of the box.

The mesh of a box that is divided into cubes conforms to it, for every number of cubes: a cell is a
piece of a cube, a face is three sites of a piece, and the piece on the other side of a face is
missing from the mesh exactly if the face is at an end of the grid.

The main result is `Mesh.grid_conforming`.
-/

namespace ImmersedBody

open Shape Kuhn

/-! ## Faces -/

/-- Whether three vertices span a face of a tetrahedron. -/
def Cell.HasFace (cell : Cell .tetrahedron) (face : Finset Nat) : Prop :=
  face.card = 3 ∧ face ⊆ cell.toList.toFinset

instance (cell : Cell .tetrahedron) (face : Finset Nat) : Decidable (cell.HasFace face) :=
  inferInstanceAs (Decidable (_ ∧ _))

namespace Mesh

/-- How many tetrahedra have a face. -/
def sharing {α : Type} (mesh : Mesh .tetrahedron α) (face : Finset Nat) : Nat :=
  mesh.cells.toList.countP fun cell => cell.HasFace face

/-- Whether vertices lie in one and the same side of the box between two corners. -/
def InSide (mesh : Mesh .tetrahedron ℝ) (low high : Vec3 ℝ) (face : Finset Nat) : Prop :=
  ∃ axis : Fin 3, ∃ bound ∈ [low, high], ∀ vertex ∈ face, ∀ position ∈ mesh.vertices[vertex]?,
    position.coordinate axis = bound.coordinate axis

/-- Tetrahedra that fit together and fill the box between two corners. -/
structure Conforming (mesh : Mesh .tetrahedron ℝ) (low high : Vec3 ℝ) : Prop where
  distinct : ∀ cell ∈ mesh.cells, cell.toList.Nodup
  oriented : ∀ i (h : i < mesh.cells.size) ξ, 0 < (mesh.element i h).volumeFactor ξ
  inner : ∀ cell ∈ mesh.cells, ∀ face, cell.HasFace face → ¬ mesh.InSide low high face →
    mesh.sharing face = 2
  outer : ∀ cell ∈ mesh.cells, ∀ face, cell.HasFace face → mesh.InSide low high face →
    mesh.sharing face = 1
  volume : ∑ i : Fin mesh.cells.size, tetrahedron.integral (mesh.element i i.isLt).volumeFactor =
    (high.x - low.x) * (high.y - low.y) * (high.z - low.z)

/-- The vertices and cells of a mesh are accepted as a mesh. -/
theorem ofCells_eq_ok {α : Type} {shape : Shape} (mesh : Mesh shape α) :
    ofCells mesh.vertices mesh.cells = .ok mesh := by
  have complete : missingVertex? mesh.vertices.size mesh.cells = none := by
    simp only [missingVertex?, List.findSome?_eq_none_iff, Option.map_eq_none_iff,
      List.find?_eq_none]
    rintro ⟨cell, number⟩ member vertex named
    have placed : mesh.cells.toList[number]? = some cell :=
      List.mem_zipIdx_iff_getElem?.mp member
    rcases Array.getElem?_eq_some_iff.mp (Array.getElem?_toList.symm.trans placed) with
      ⟨inside, rfl⟩
    rcases List.getElem_of_mem named with ⟨node, bound, rfl⟩
    have := mesh.inBounds number inside node (by simpa using bound)
    simpa using this
  rw [ofCells]
  split
  · rename_i found
    rw [complete] at found
    cases found
  · rfl

end Mesh

namespace GridSize

/-! ## Pieces of the grid -/

variable {α : Type} {size : GridSize α}

/-- A piece of the cube at a base, by the numbers of its vertices. -/
def piece (size : GridSize α) (q : Site) (part : Cell .tetrahedron) : Cell .tetrahedron :=
  part.map fun node => size.number (q + corner node)

theorem toFinset_piece (q : Site) (part : Cell .tetrahedron) :
    (size.piece q part).toList.toFinset = (sitesAt q part).image size.number := by
  ext vertex
  simp [piece, sitesAt, nodesAt]

theorem getElem_cube {q : Site} (base : size.Bases q) :
    ∀ node (h : node < 8), (size.cube q)[node] = size.number (q + corner node) := by
  have column : (q 0 + 1).toNat = (q 0).toNat + 1 := Int.toNat_add (base 0).1 (by decide)
  have row : (q 1 + 1).toNat = (q 1).toNat + 1 := Int.toNat_add (base 1).1 (by decide)
  have layer : (q 2 + 1).toNat = (q 2).toNat + 1 := Int.toNat_add (base 2).1 (by decide)
  intro node h
  match node, h with
  | 0, _ | 1, _ | 2, _ | 3, _ | 4, _ | 5, _ | 6, _ | 7, _ =>
    simp [cube, Mesh.boxCell, number, corner, column, row, layer]

theorem tetrahedra_cube {q : Site} (base : size.Bases q) :
    (size.cube q).tetrahedra = pieces.map (size.piece q) := by
  simp [Cell.tetrahedra, getElem_cube base, pieces, piece]

theorem cells_grid [Scalar α] {origin : Vec3 α} (positive : ∀ axis, 0 < size.counts axis) :
    (Mesh.grid size origin .tetrahedron).cells.toList =
      (size.bases.product pieces).map fun found => size.piece found.1 found.2 := by
  show ((Mesh.box size origin).cells.flatMap fun cell => cell.tetrahedra.toArray).toList = _
  rw [Array.toList_flatMap, cells_box positive, List.flatMap_map, List.product, List.map_flatMap]
  apply List.flatMap_congr
  intro q member
  rw [tetrahedra_cube (mem_bases.mp member), List.map_map]
  rfl

variable {q : Site} {part : Cell .tetrahedron} {face : Finset Site}

theorem spans_of_mem_sitesAt (base : size.Bases q) {p : Site} (member : p ∈ sitesAt q part) :
    size.Spans p := by
  intro axis
  have := base axis
  have := bounds_of_mem_sitesAt member axis
  omega

/-- A face of a piece, as sites. -/
theorem exists_sites (base : size.Bases q) {vertices : Finset Nat}
    (hasFace : (size.piece q part).HasFace vertices) :
    ∃ face, face.image size.number = vertices ∧ face.card = 3 ∧ face ⊆ sitesAt q part := by
  rcases hasFace with ⟨three, within⟩
  rw [toFinset_piece] at within
  rcases Finset.subset_image_iff.mp within with ⟨face, inside, rfl⟩
  refine ⟨face, rfl, ?_, Finset.coe_subset.mp inside⟩
  rw [← three, Finset.card_image_of_injOn]
  exact number_injOn.mono fun p member => spans_of_mem_sitesAt base (inside member)

theorem hasFace_image_iff (base : size.Bases q) (three : face.card = 3)
    (spans : ∀ p ∈ face, size.Spans p) :
    (size.piece q part).HasFace (face.image size.number) ↔ face ⊆ sitesAt q part := by
  have injective : Set.InjOn size.number (face ∪ sitesAt q part : Finset Site) := by
    refine number_injOn.mono fun p member => ?_
    rcases Finset.mem_union.mp member with inFace | inPart
    · exact spans p inFace
    · exact spans_of_mem_sitesAt base inPart
  have count : (face.image size.number).card = 3 := by
    rw [Finset.card_image_of_injOn (number_injOn.mono spans), three]
  rw [Cell.HasFace, toFinset_piece, and_iff_right count]
  exact Finset.image_subset_image_iff_of_injOn injective Finset.subset_union_left
    Finset.subset_union_right

/-! ## Sharing -/

/-- The pieces of all cubes that have a face. -/
def sharers (size : GridSize α) (vertices : Finset Nat) : List (Site × Cell .tetrahedron) :=
  (size.bases.product pieces).filter fun found => (size.piece found.1 found.2).HasFace vertices

theorem sharing_grid [Scalar α] {origin : Vec3 α} (positive : ∀ axis, 0 < size.counts axis)
    (vertices : Finset Nat) :
    (Mesh.grid size origin .tetrahedron).sharing vertices = (size.sharers vertices).length := by
  rw [Mesh.sharing, cells_grid positive, List.countP_map, List.countP_eq_length_filter]
  rfl

theorem sharers_nodup (size : GridSize α) (vertices : Finset Nat) :
    (size.sharers vertices).Nodup :=
  (size.bases_nodup.product (by decide)).filter _

section

variable {other : Site × Cell .tetrahedron}

/-- A face belongs to its piece, and to the piece on its other side if that is in the grid. -/
theorem mem_sharers (base : size.Bases q) (known : part ∈ pieces) (three : face.card = 3)
    (within : face ⊆ sitesAt q part) (opposite : Opposite face (q, part) other)
    (found : Site × Cell .tetrahedron) :
    found ∈ size.sharers (face.image size.number) ↔
      found = (q, part) ∨ found = other ∧ size.Bases other.1 := by
  have spans : ∀ p ∈ face, size.Spans p := fun p member => spans_of_mem_sitesAt base (within member)
  rw [sharers, List.mem_filter, List.pair_mem_product, mem_bases, decide_eq_true_iff]
  constructor
  · rintro ⟨⟨inside, foundPart⟩, hasFace⟩
    rw [hasFace_image_iff inside three spans, opposite.only found foundPart] at hasFace
    rcases hasFace with rfl | rfl
    · exact Or.inl rfl
    · exact Or.inr ⟨rfl, inside⟩
  · rintro (rfl | ⟨rfl, inside⟩)
    · exact ⟨⟨base, known⟩, (hasFace_image_iff base three spans).mpr within⟩
    · refine ⟨⟨inside, opposite.part⟩, (hasFace_image_iff inside three spans).mpr ?_⟩
      exact (opposite.only found opposite.part).mpr (Or.inr rfl)

theorem length_sharers_inner (base : size.Bases q) (known : part ∈ pieces) (three : face.card = 3)
    (within : face ⊆ sitesAt q part) (opposite : Opposite face (q, part) other)
    (inside : size.Bases other.1) : (size.sharers (face.image size.number)).length = 2 := by
  have both : (size.sharers (face.image size.number)).Perm [(q, part), other] := by
    refine (List.perm_ext_iff_of_nodup (sharers_nodup size _) ?_).mpr fun found => ?_
    · simpa using opposite.ne.symm
    · rw [mem_sharers base known three within opposite, and_iff_left inside]
      simp
  exact both.length_eq

theorem length_sharers_outer (base : size.Bases q) (known : part ∈ pieces) (three : face.card = 3)
    (within : face ⊆ sitesAt q part) (opposite : Opposite face (q, part) other)
    (outside : ¬ size.Bases other.1) : (size.sharers (face.image size.number)).length = 1 := by
  have alone : (size.sharers (face.image size.number)).Perm [(q, part)] := by
    refine (List.perm_ext_iff_of_nodup (sharers_nodup size _) ?_).mpr fun found => ?_
    · simp
    · rw [mem_sharers base known three within opposite]
      simp [outside]
  exact alone.length_eq

/--
The piece on the other side of a face is missing exactly if the face is at an end of the grid.
-/
theorem not_bases_opposite_iff (base : size.Bases q) (three : face.card = 3)
    (within : face ⊆ sitesAt q part) (opposite : Opposite face (q, part) other) :
    ¬ size.Bases other.1 ↔
      ∃ axis, (∀ p ∈ face, p axis = 0) ∨ ∀ p ∈ face, p axis = size.counts axis := by
  have below (axis : Fin 3) : other.1 axis = q axis - 1 ↔ ∀ p ∈ face, p axis = q axis :=
    opposite.below axis
  have above (axis : Fin 3) : other.1 axis = q axis + 1 ↔ ∀ p ∈ face, p axis = q axis + 1 :=
    opposite.above axis
  constructor
  · intro outside
    rcases not_forall.mp outside with ⟨axis, beyond⟩
    have inside := base axis
    have near : q axis - 1 ≤ other.1 axis ∧ other.1 axis ≤ q axis + 1 := opposite.near axis
    have ends : other.1 axis = q axis - 1 ∧ q axis = 0 ∨
        other.1 axis = q axis + 1 ∧ q axis + 1 = size.counts axis := by
      omega
    rcases ends with ⟨left, first⟩ | ⟨right, last⟩
    · exact ⟨axis, Or.inl fun p member => ((below axis).mp left p member).trans first⟩
    · exact ⟨axis, Or.inr fun p member => ((above axis).mp right p member).trans last⟩
  · rintro ⟨axis, side⟩ inside
    rcases Finset.card_pos.mp (show 0 < face.card by omega) with ⟨p, member⟩
    have bounds := base axis
    have around := bounds_of_mem_sitesAt (within member) axis
    have otherBounds := inside axis
    rcases side with low | high
    · have atLow := low p member
      have first : q axis = 0 := by omega
      have left := (below axis).mpr fun p' member' => (low p' member').trans first.symm
      omega
    · have atHigh := high p member
      have last : q axis + 1 = size.counts axis := by omega
      have right := (above axis).mpr fun p' member' => (high p' member').trans last.symm
      omega

end

/-! ## Sides of the box -/

section

variable {size : GridSize ℝ} {origin : Vec3 ℝ}

/-- The corner of a box that lies opposite to its origin. -/
noncomputable def top (size : GridSize ℝ) (origin : Vec3 ℝ) : Vec3 ℝ :=
  ⟨origin.x + size.unit * size.unitsX, origin.y + size.unit * size.unitsY,
    origin.z + size.unit * size.unitsZ⟩

theorem coordinate_position (axis : Fin 3) (p : Site) :
    (size.position origin p).coordinate axis = origin.coordinate axis + p axis * size.side := by
  match axis with
  | 0 | 1 | 2 => rfl

theorem position_zero : size.position origin 0 = origin := by
  ext <;> simp [position]

theorem position_counts (divided : 0 < size.cellsPerUnit) :
    size.position origin (fun axis => size.counts axis) = size.top origin := by
  have cells : (size.cellsPerUnit : ℝ) ≠ 0 := by positivity
  ext <;>
  · simp [position, top, counts, side, cellsX, cellsY, cellsZ]
    field_simp

/-- A face lies in a side of the box exactly if its sites are at one end of the grid. -/
theorem inSide_iff (positive : ∀ axis, 0 < size.counts axis) (divided : 0 < size.cellsPerUnit)
    (long : 0 < size.side) {face : Finset Site} (spans : ∀ p ∈ face, size.Spans p) :
    (Mesh.grid size origin .tetrahedron).InSide origin (size.top origin)
        (face.image size.number) ↔
      ∃ axis, (∀ p ∈ face, p axis = 0) ∨ ∀ p ∈ face, p axis = size.counts axis := by
  have levels (axis : Fin 3) (b : Site) :
      (∀ vertex ∈ face.image size.number,
        ∀ position ∈ (Mesh.grid size origin .tetrahedron).vertices[vertex]?,
          position.coordinate axis = (size.position origin b).coordinate axis) ↔
        ∀ p ∈ face, p axis = b axis := by
    rw [Finset.forall_mem_image]
    refine forall₂_congr fun p member => ?_
    rw [show (Mesh.grid size origin .tetrahedron).vertices[size.number p]? =
      some (size.position origin p) from vertices_box positive (spans p member)]
    simp [coordinate_position, long.ne']
  have low (axis : Fin 3) := levels axis 0
  have high (axis : Fin 3) := levels axis fun axis => size.counts axis
  rw [position_zero] at low
  rw [position_counts divided] at high
  refine exists_congr fun axis => Iff.trans ?_ (or_congr (low axis) (high axis))
  simp only [List.mem_cons, List.not_mem_nil, or_false, exists_eq_or_imp, exists_eq_left]

end

/-! ## Volumes -/

/-- The edges of a piece from its first node span a volume, with positive orientation. -/
theorem triple_product_piece (size : GridSize ℝ) (origin : Vec3 ℝ) (q : Site)
    {part : Cell .tetrahedron} (known : part ∈ pieces) {element : Element .tetrahedron ℝ}
    (nodes : ∀ node (h : node < 4),
      element[node] = size.position origin (q + corner part[node])) :
    ((element[1] - element[0]).cross (element[2] - element[0])).dot (element[3] - element[0]) =
      size.side ^ 3 := by
  simp only [pieces, Cell.tetrahedra, List.mem_cons, List.not_mem_nil, or_false] at known
  rcases known with rfl | rfl | rfl | rfl | rfl | rfl <;>
  · simp [nodes, position, corner, Vec3.cross, Vec3.dot]
    ring

section

variable {size : GridSize ℝ} {origin : Vec3 ℝ}

/-- Every cell of the mesh is a piece of a cube. -/
theorem exists_piece (positive : ∀ axis, 0 < size.counts axis) {cell : Cell .tetrahedron}
    (member : cell ∈ (Mesh.grid size origin .tetrahedron).cells) :
    ∃ q, size.Bases q ∧ ∃ part ∈ pieces, cell = size.piece q part := by
  rw [← Array.mem_toList_iff, cells_grid positive, List.mem_map] at member
  rcases member with ⟨⟨q, part⟩, found, rfl⟩
  rcases List.pair_mem_product.mp found with ⟨base, known⟩
  exact ⟨q, mem_bases.mp base, part, known, rfl⟩

theorem nodup_corners : ∀ part ∈ pieces, (part.toList.map corner).Nodup := by
  decide

theorem nodup_piece {q : Site} (base : size.Bases q) {part : Cell .tetrahedron}
    (known : part ∈ pieces) : (size.piece q part).toList.Nodup := by
  have sites : (size.piece q part).toList =
      (part.toList.map fun node => q + corner node).map size.number := by
    rw [piece, Vector.toList_map, List.map_map]
    rfl
  have distinct : (part.toList.map fun node => q + corner node).Nodup := by
    have shifted := (nodup_corners part known).map (add_right_injective q)
    rwa [List.map_map] at shifted
  rw [sites]
  refine distinct.map_on fun p member p' member' same => ?_
  exact number_injOn (spans_of_mem_sitesAt base (List.mem_toFinset.mpr member))
    (spans_of_mem_sitesAt base (List.mem_toFinset.mpr member')) same

theorem volumeFactor_grid (positive : ∀ axis, 0 < size.counts axis) {i : Nat}
    (h : i < (Mesh.grid size origin .tetrahedron).cells.size) (ξ : Vec3 ℝ) :
    ((Mesh.grid size origin .tetrahedron).element i h).volumeFactor ξ = size.side ^ 3 / 8 := by
  rcases exists_piece positive (Array.getElem_mem h) with ⟨q, base, part, known, isPiece⟩
  rw [volumeFactor_tetrahedron, triple_product_piece size origin q known]
  intro node bound
  have member : q + corner part[node] ∈ sitesAt q part :=
    mem_sitesAt.mpr ⟨part[node], by simp, rfl⟩
  have named : (Mesh.grid size origin .tetrahedron).cells[i][node] =
      size.number (q + corner part[node]) := by
    rw [isPiece]
    simp [piece]
  have inside := (Mesh.grid size origin .tetrahedron).inBounds i h node bound
  apply Option.some.inj
  calc some ((Mesh.grid size origin .tetrahedron).element i h)[node]
      = some (Mesh.grid size origin .tetrahedron).vertices[
          (Mesh.grid size origin .tetrahedron).cells[i][node]] := by
        simp [Mesh.element, Cell.element]
    _ = (Mesh.box size origin).vertices[size.number (q + corner part[node])]? := by
        rw [← Array.getElem?_eq_getElem inside, named]
        rfl
    _ = some (size.position origin (q + corner part[node])) :=
        vertices_box positive (spans_of_mem_sitesAt base member)

theorem size_cells_grid (positive : ∀ axis, 0 < size.counts axis) :
    (Mesh.grid size origin .tetrahedron).cells.size =
      6 * (size.cellsX * size.cellsY * size.cellsZ) := by
  have each : (size.bases.product pieces).length = size.bases.length * 6 :=
    List.length_product _ _
  rw [← Array.length_toList, cells_grid positive, List.length_map, each, length_bases,
    Nat.mul_comm]

/-- A face is shared by two tetrahedra, or belongs to one if it lies in a side of the box. -/
theorem sharing_of_hasFace (positive : ∀ axis, 0 < size.counts axis)
    (divided : 0 < size.cellsPerUnit) (long : 0 < size.side) {cell : Cell .tetrahedron}
    (member : cell ∈ (Mesh.grid size origin .tetrahedron).cells) {vertices : Finset Nat}
    (hasFace : cell.HasFace vertices) :
    ((Mesh.grid size origin .tetrahedron).InSide origin (size.top origin) vertices →
      (Mesh.grid size origin .tetrahedron).sharing vertices = 1) ∧
    (¬ (Mesh.grid size origin .tetrahedron).InSide origin (size.top origin) vertices →
      (Mesh.grid size origin .tetrahedron).sharing vertices = 2) := by
  rcases exists_piece positive member with ⟨q, base, part, known, rfl⟩
  rcases exists_sites base hasFace with ⟨face, rfl, three, within⟩
  rcases exists_opposite known three within with ⟨other, opposite⟩
  have spans : ∀ p ∈ face, size.Spans p := fun p inFace => spans_of_mem_sitesAt base (within inFace)
  rw [inSide_iff positive divided long spans, ← not_bases_opposite_iff base three within opposite,
    sharing_grid positive, not_not]
  exact ⟨length_sharers_outer base known three within opposite,
    length_sharers_inner base known three within opposite⟩

/-- The volumes of all tetrahedra add up to the volume of the box. -/
theorem sum_volumes (positive : ∀ axis, 0 < size.counts axis) (divided : 0 < size.cellsPerUnit) :
    ∑ i : Fin (Mesh.grid size origin .tetrahedron).cells.size,
        tetrahedron.integral
          ((Mesh.grid size origin .tetrahedron).element i i.isLt).volumeFactor =
      ((size.top origin).x - origin.x) * ((size.top origin).y - origin.y) *
        ((size.top origin).z - origin.z) := by
  have each (i : Fin (Mesh.grid size origin .tetrahedron).cells.size) :
      tetrahedron.integral ((Mesh.grid size origin .tetrahedron).element i i.isLt).volumeFactor =
        size.side ^ 3 / 6 := by
    rw [funext (volumeFactor_grid positive i.isLt), integral_const_tetrahedron]
    ring
  rw [Finset.sum_congr rfl fun i _ => each i, Finset.sum_const, Finset.card_univ, Fintype.card_fin,
    size_cells_grid positive, ← position_counts divided, nsmul_eq_mul]
  simp [position, counts]
  ring

end

end GridSize

namespace Mesh

/-! ## Memory -/

/-- A grid has at most eight times as many vertices as cubes. -/
theorem vertexCount_le {size : GridSize ℝ} (positive : ∀ axis, 0 < size.counts axis) :
    size.vertexCount .three ≤ 8 * size.cellCount .three := by
  have twice {cells : Nat} (occupied : 0 < cells) : cells + 1 ≤ 2 * cells := by
    omega
  calc size.vertexCount .three
      ≤ (size.cellsX + 1) * (size.cellsY + 1) * (size.cellsZ + 1) := by
        rw [GridSize.vertexCount]
        split
        · exact Nat.zero_le _
        · exact Nat.le_refl _
    _ ≤ (2 * size.cellsX) * (2 * size.cellsY) * (2 * size.cellsZ) :=
        Nat.mul_le_mul (Nat.mul_le_mul (twice (positive 0)) (twice (positive 1)))
          (twice (positive 2))
    _ = 8 * size.cellCount .three := by
        rw [GridSize.cellCount]
        ring

/-- The tetrahedra take the most memory of all that a grid is made from. -/
theorem grid?_eq_ok_iff {size : GridSize ℝ} {origin : Vec3 ℝ}
    (positive : ∀ axis, 0 < size.counts axis) {mesh : Mesh .tetrahedron ℝ} :
    grid? size origin .tetrahedron = .ok mesh ↔
      size.cellCount .three ≤ 2 ^ 55 ∧ mesh = grid size origin .tetrahedron := by
  have tetrahedra : fitsInMemory (simplexRoom size .tetrahedron) ↔
      size.cellCount .three ≤ 2 ^ 55 :=
    fitsInMemory_roomFor_iff (by decide) (by decide)
  have few := vertexCount_le positive
  simp only [grid?, bind_eq_ok_iff, pure_eq_ok_iff, Fault.checkWord_eq_ok_iff,
    Fault.checkMemory_eq_ok_iff, exists_and_left, exists_const, tetrahedra]
  constructor
  · rintro ⟨-, -, -, room, made⟩
    exact ⟨room, made⟩
  · rintro ⟨room, made⟩
    have words : size.vertexCount .three < wordCount := by
      rw [wordCount]
      omega
    have vertices : fitsInMemory (size.vertexCount .three * 3) := by
      rw [fitsInMemory, decide_eq_true_iff, numberBytes, memoryBytes]
      omega
    have cubes : fitsInMemory (size.cellCount .three * 8) := by
      rw [fitsInMemory, decide_eq_true_iff, numberBytes, memoryBytes]
      omega
    exact ⟨words, vertices, cubes, room, made⟩

/-! ## The main result -/

/--
A box that is divided into cubes, and each cube into six tetrahedra, is a conforming mesh: the
tetrahedra are oriented, fill the box, and share their faces with exactly one neighbor except on
the sides of the box.  It is made if there are so few cubes that the tetrahedra fit into memory.
-/
theorem grid_conforming (size : GridSize ℝ) (origin : Vec3 ℝ) (unit : 0 < size.unit)
    (x : 1 ≤ size.unitsX) (y : 1 ≤ size.unitsY) (z : 1 ≤ size.unitsZ)
    (divided : 1 ≤ size.cellsPerUnit) :
    (size.cellCount .three ≤ 2 ^ 55 →
      grid? size origin .tetrahedron = .ok (grid size origin .tetrahedron)) ∧
    (2 ^ 55 < size.cellCount .three →
      ∃ fault, grid? size origin .tetrahedron = .error fault) ∧
    ofCells (box size origin).vertices (box size origin).cells = .ok (box size origin) ∧
    ofCells (grid size origin .tetrahedron).vertices (grid size origin .tetrahedron).cells =
      .ok (grid size origin .tetrahedron) ∧
    (box size origin).cells.size = size.cellCount .three ∧
    (grid size origin .tetrahedron).cells.size = 6 * (box size origin).cells.size ∧
    (grid size origin .tetrahedron).Conforming origin (size.top origin) := by
  have positive (axis : Fin 3) : 0 < size.counts axis := by
    match axis with
    | 0 => exact Nat.mul_pos x divided
    | 1 => exact Nat.mul_pos y divided
    | 2 => exact Nat.mul_pos z divided
  have long : 0 < size.side := div_pos unit (Nat.cast_pos.mpr divided)
  have conforming : (grid size origin .tetrahedron).Conforming origin (size.top origin) := {
    distinct := by
      intro cell member
      rcases GridSize.exists_piece positive member with ⟨q, base, part, known, rfl⟩
      exact GridSize.nodup_piece base known
    oriented := by
      intro i h ξ
      rw [GridSize.volumeFactor_grid positive]
      positivity
    inner := fun cell member face hasFace =>
      (GridSize.sharing_of_hasFace positive divided long member hasFace).2
    outer := fun cell member face hasFace =>
      (GridSize.sharing_of_hasFace positive divided long member hasFace).1
    volume := GridSize.sum_volumes positive divided }
  have cubes : (box size origin).cells.size = size.cellCount .three := by
    rw [← Array.length_toList, GridSize.cells_box positive, List.length_map, GridSize.length_bases,
      GridSize.cellCount]
  refine ⟨?_, ?_, ofCells_eq_ok _, ofCells_eq_ok _, cubes, ?_, conforming⟩
  · intro room
    exact (grid?_eq_ok_iff positive).mpr ⟨room, rfl⟩
  · intro many
    cases made : grid? size origin .tetrahedron with
    | error fault =>
        exact ⟨fault, rfl⟩
    | ok mesh =>
        exact absurd ((grid?_eq_ok_iff positive).mp made).1 (not_le.mpr many)
  · rw [cubes, GridSize.size_cells_grid positive, GridSize.cellCount]

theorem grid_of_two_units_conforming :
    grid? ⟨1, 2, 1, 1, 2⟩ ⟨-1, -1 / 2, -1 / 2⟩ .tetrahedron =
        .ok (grid ⟨1, 2, 1, 1, 2⟩ ⟨-1, -1 / 2, -1 / 2⟩ .tetrahedron : Mesh _ ℝ) ∧
      (grid ⟨1, 2, 1, 1, 2⟩ ⟨-1, -1 / 2, -1 / 2⟩ .tetrahedron : Mesh _ ℝ).cells.size = 96 ∧
      (grid ⟨1, 2, 1, 1, 2⟩ ⟨-1, -1 / 2, -1 / 2⟩ .tetrahedron).Conforming ⟨-1, -1 / 2, -1 / 2⟩
        ⟨1, 1 / 2, 1 / 2⟩ := by
  rcases grid_conforming ⟨1, 2, 1, 1, 2⟩ ⟨-1, -1 / 2, -1 / 2⟩ one_pos (by decide) (by decide)
    (by decide) (by decide) with ⟨made, -, -, -, cubes, count, conforming⟩
  have top : GridSize.top ⟨1, 2, 1, 1, 2⟩ ⟨-1, -1 / 2, -1 / 2⟩ = ⟨1, 1 / 2, 1 / 2⟩ := by
    ext <;> norm_num [GridSize.top]
  rw [top] at conforming
  rw [cubes] at count
  exact ⟨made (by decide), count, conforming⟩

/--
A box of so many cubes that words can count its vertices, its cubes and its tetrahedra, but that
memory cannot hold.
-/
theorem grid_of_many_units_refused :
    (GridSize.mk (1 : ℝ) (2 ^ 20) (2 ^ 20) (2 ^ 20) 1).vertexCount .three < wordCount ∧
      6 * (GridSize.mk (1 : ℝ) (2 ^ 20) (2 ^ 20) (2 ^ 20) 1).cellCount .three < wordCount ∧
        ∀ origin : Vec3 ℝ, grid? ⟨1, 2 ^ 20, 2 ^ 20, 2 ^ 20, 1⟩ origin .tetrahedron =
          .error .tooManyItems := by
  refine ⟨by decide, by decide, ?_⟩
  intro origin
  rfl

end Mesh

end ImmersedBody
