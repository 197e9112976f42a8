import Mathlib.Data.Fin.VecNotation
import Mathlib.Data.Fintype.Pi
import Mathlib.Data.List.OfFn
import Mathlib.Order.Interval.Finset.Defs
import Mathlib.Tactic.FinCases
import Mathlib.Tactic.Ring
import ImmersedBody.Proofs.Reals
import ImmersedBody.Mesh.Split

/-!
# Sites of a box-shaped grid

A site is a column, a row and a layer of a grid.  Vertices are numbered by their sites, the columns
running fastest, and every cube of the grid is found by the site of its lowest corner.
-/

namespace ImmersedBody

/-- A column, a row and a layer of a grid. -/
abbrev Site := Fin 3 → ℤ

/-- The number of a place in layers of `height` rows with `width` places each. -/
def rowMajor (width height i j k : Nat) : Nat :=
  (k * height + j) * width + i

section

variable {width height i j k : Nat}

theorem rowMajor_mod (column : i < width) : rowMajor width height i j k % width = i := by
  rw [rowMajor, Nat.mul_add_mod_self_right, Nat.mod_eq_of_lt column]

theorem rowMajor_div (column : i < width) :
    rowMajor width height i j k / width = k * height + j := by
  rw [rowMajor, Nat.mul_comm, Nat.mul_add_div (Nat.zero_lt_of_lt column), Nat.div_eq_of_lt column,
    Nat.add_zero]

theorem rowMajor_div_mod (column : i < width) (row : j < height) :
    rowMajor width height i j k / width % height = j := by
  rw [rowMajor_div column, Nat.mul_add_mod_self_right, Nat.mod_eq_of_lt row]

theorem rowMajor_div_div (column : i < width) (row : j < height) :
    rowMajor width height i j k / width / height = k := by
  rw [rowMajor_div column, Nat.mul_comm, Nat.mul_add_div (Nat.zero_lt_of_lt row),
    Nat.div_eq_of_lt row, Nat.add_zero]

/-- A place is found again from its number. -/
theorem rowMajor_of_div (width height l : Nat) :
    rowMajor width height (l % width) (l / width % height) (l / width / height) = l := by
  rw [rowMajor, Nat.div_add_mod', Nat.div_add_mod']

theorem rowMajor_lt {depth : Nat} (column : i < width) (row : j < height) (layer : k < depth) :
    rowMajor width height i j k < width * height * depth := by
  have rows : k * height + j < depth * height :=
    calc k * height + j < k * height + height := Nat.add_lt_add_left row _
      _ = (k + 1) * height := (Nat.succ_mul k height).symm
      _ ≤ depth * height := Nat.mul_le_mul_right height layer
  calc rowMajor width height i j k < (k * height + j) * width + width :=
        Nat.add_lt_add_left column _
    _ = (k * height + j + 1) * width := (Nat.succ_mul _ width).symm
    _ ≤ depth * height * width := Nat.mul_le_mul_right width rows
    _ = width * height * depth := by ring

theorem boxVertex_eq (width height i j k : Nat) :
    Mesh.boxVertex width height i j k = rowMajor (width + 1) (height + 1) i j k := by
  rw [Mesh.boxVertex, gridVertex, rowMajor]
  ring

end

namespace GridSize

variable {α : Type} {size : GridSize α}

/-- The numbers of cells along the three axes. -/
def counts (size : GridSize α) : Fin 3 → Nat :=
  ![size.cellsX, size.cellsY, size.cellsZ]

/-- The sites of the vertices. -/
def Spans (size : GridSize α) (p : Site) : Prop :=
  ∀ axis, 0 ≤ p axis ∧ p axis ≤ size.counts axis

/-- The sites of the lowest corners of the cubes. -/
def Bases (size : GridSize α) (q : Site) : Prop :=
  ∀ axis, 0 ≤ q axis ∧ q axis < size.counts axis

/-- The number of the vertex at a site. -/
def number (size : GridSize α) (p : Site) : Nat :=
  Mesh.boxVertex size.cellsX size.cellsY (p 0).toNat (p 1).toNat (p 2).toNat

theorem Spans.toNat_lt {p : Site} (spans : size.Spans p) (axis : Fin 3) :
    (p axis).toNat < size.counts axis + 1 := by
  have := spans axis
  omega

section

variable {p : Site}

theorem column_number (spans : size.Spans p) :
    ((size.number p % (size.cellsX + 1) : Nat) : ℤ) = p 0 := by
  have column : (p 0).toNat < size.cellsX + 1 := spans.toNat_lt 0
  rw [number, boxVertex_eq, rowMajor_mod column, Int.toNat_of_nonneg (spans 0).1]

theorem row_number (spans : size.Spans p) :
    ((size.number p / (size.cellsX + 1) % (size.cellsY + 1) : Nat) : ℤ) = p 1 := by
  have column : (p 0).toNat < size.cellsX + 1 := spans.toNat_lt 0
  have row : (p 1).toNat < size.cellsY + 1 := spans.toNat_lt 1
  rw [number, boxVertex_eq, rowMajor_div_mod column row, Int.toNat_of_nonneg (spans 1).1]

theorem layer_number (spans : size.Spans p) :
    ((size.number p / (size.cellsX + 1) / (size.cellsY + 1) : Nat) : ℤ) = p 2 := by
  have column : (p 0).toNat < size.cellsX + 1 := spans.toNat_lt 0
  have row : (p 1).toNat < size.cellsY + 1 := spans.toNat_lt 1
  rw [number, boxVertex_eq, rowMajor_div_div column row, Int.toNat_of_nonneg (spans 2).1]

end

/-- Vertices at different sites have different numbers. -/
theorem number_injOn : Set.InjOn size.number {p | size.Spans p} := by
  intro p spans q spans' same
  funext axis
  match axis with
  | 0 => rw [← column_number spans, same, column_number spans']
  | 1 => rw [← row_number spans, same, row_number spans']
  | 2 => rw [← layer_number spans, same, layer_number spans']

theorem number_lt {p : Site} (spans : size.Spans p) :
    size.number p < (size.cellsX + 1) * (size.cellsY + 1) * (size.cellsZ + 1) := by
  rw [number, boxVertex_eq]
  exact rowMajor_lt (spans.toNat_lt 0) (spans.toNat_lt 1) (spans.toNat_lt 2)

/-! ## Cubes -/

theorem Bases.toNat_lt {q : Site} (base : size.Bases q) (axis : Fin 3) :
    (q axis).toNat < size.counts axis := by
  have := base axis
  omega

/-- The bases of the cubes, in the order of the cubes. -/
def bases (size : GridSize α) : List Site :=
  List.ofFn fun l : Fin (size.cellsX * size.cellsY * size.cellsZ) =>
    ![((l % size.cellsX : Nat) : ℤ), ((l / size.cellsX % size.cellsY : Nat) : ℤ),
      ((l / size.cellsX / size.cellsY : Nat) : ℤ)]

theorem length_bases (size : GridSize α) :
    size.bases.length = size.cellsX * size.cellsY * size.cellsZ :=
  List.length_ofFn

theorem bases_nodup (size : GridSize α) : size.bases.Nodup := by
  rw [bases, List.nodup_ofFn]
  intro l l' same
  have column := Int.ofNat.inj (congrFun same 0)
  have row := Int.ofNat.inj (congrFun same 1)
  have layer := Int.ofNat.inj (congrFun same 2)
  apply Fin.ext
  rw [← rowMajor_of_div size.cellsX size.cellsY l, ← rowMajor_of_div size.cellsX size.cellsY l',
    column, row, layer]

theorem mem_bases {q : Site} : q ∈ size.bases ↔ size.Bases q := by
  rw [bases, List.mem_ofFn]
  constructor
  · rintro ⟨⟨l, inside⟩, rfl⟩ axis
    rw [Nat.mul_assoc] at inside
    have columns : 0 < size.cellsX := Nat.pos_of_mul_pos_right (Nat.zero_lt_of_lt inside)
    have places : l / size.cellsX < size.cellsY * size.cellsZ := Nat.div_lt_of_lt_mul inside
    have rows : 0 < size.cellsY := Nat.pos_of_mul_pos_right (Nat.zero_lt_of_lt places)
    match axis with
    | 0 => exact ⟨Int.natCast_nonneg _, Int.ofNat_lt.mpr (Nat.mod_lt _ columns)⟩
    | 1 => exact ⟨Int.natCast_nonneg _, Int.ofNat_lt.mpr (Nat.mod_lt _ rows)⟩
    | 2 => exact ⟨Int.natCast_nonneg _, Int.ofNat_lt.mpr (Nat.div_lt_of_lt_mul places)⟩
  · intro base
    have column := base.toNat_lt 0
    have row := base.toNat_lt 1
    refine ⟨⟨rowMajor size.cellsX size.cellsY (q 0).toNat (q 1).toNat (q 2).toNat,
      rowMajor_lt column row (base.toNat_lt 2)⟩, ?_⟩
    funext axis
    rw [← Int.toNat_of_nonneg (base axis).1]
    match axis with
    | 0 => exact congrArg Nat.cast (rowMajor_mod column)
    | 1 => exact congrArg Nat.cast (rowMajor_div_mod column row)
    | 2 => exact congrArg Nat.cast (rowMajor_div_div column row)

/-- The cube at a base. -/
def cube (size : GridSize α) (q : Site) : Cell .hexahedron :=
  Mesh.boxCell size.cellsX size.cellsY (q 0).toNat (q 1).toNat (q 2).toNat

/-! ## Boxes -/

theorem not_zero_of_counts_pos (positive : ∀ axis, 0 < size.counts axis) :
    ¬ (size.cellsX = 0 ∨ size.cellsY = 0 ∨ size.cellsZ = 0) := by
  have columns : 0 < size.cellsX := positive 0
  have rows : 0 < size.cellsY := positive 1
  have layers : 0 < size.cellsZ := positive 2
  omega

/-- A box is made of the cubes at its bases. -/
theorem cells_box [Scalar α] {origin : Vec3 α} (positive : ∀ axis, 0 < size.counts axis) :
    (Mesh.box size origin).cells.toList = size.bases.map size.cube := by
  simp only [Mesh.box, if_neg (not_zero_of_counts_pos positive), Array.toList_ofFn]
  rw [bases, List.map_ofFn]
  rfl

/-- The position of a site. -/
noncomputable def position (size : GridSize ℝ) (origin : Vec3 ℝ) (p : Site) : Vec3 ℝ :=
  origin + Vec3.scale (⟨p 0, p 1, p 2⟩ : Vec3 ℝ) size.side

theorem vertices_box {size : GridSize ℝ} {origin : Vec3 ℝ} {p : Site}
    (positive : ∀ axis, 0 < size.counts axis) (spans : size.Spans p) :
    (Mesh.box size origin).vertices[size.number p]? = some (size.position origin p) := by
  simp only [Mesh.box, if_neg (not_zero_of_counts_pos positive)]
  rw [Array.getElem?_ofFn, dif_pos (number_lt spans), position, ← column_number spans,
    ← row_number spans, ← layer_number spans, Int.cast_natCast, Int.cast_natCast, Int.cast_natCast]

end GridSize

end ImmersedBody
