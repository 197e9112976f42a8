import ImmersedBody.Mesh.Basic

/-!
# Uniform grids

A rectangle or a box is divided into equal cells, so many per unit of length.  Vertices are numbered
row by row: the first coordinate runs fastest.

The rows of a rectangle go down from its top left corner, those of a box go up from the corner with
the smallest coordinates.
-/

namespace ImmersedBody

/-- The number of a vertex in a grid with `width + 1` vertices per row. -/
def gridVertex (width i j : Nat) : Nat :=
  (width + 1) * j + i

theorem gridVertex_lt {width height i j : Nat} (hi : i ≤ width) (hj : j ≤ height) :
    gridVertex width i j < (width + 1) * (height + 1) := by
  have : (width + 1) * j ≤ (width + 1) * height := Nat.mul_le_mul_left _ hj
  simp only [gridVertex, Nat.mul_succ]
  omega

/-- The size of a rectangle or a box and of the cells in it. -/
structure GridSize (α : Type) where
  /-- The unit of length. -/
  unit : α
  unitsX : Nat
  unitsY : Nat
  unitsZ : Nat
  cellsPerUnit : Nat

namespace GridSize

variable {α : Type}

/-- The number of cells along the first axis. -/
def cellsX (size : GridSize α) : Nat := size.unitsX * size.cellsPerUnit

/-- The number of cells along the second axis. -/
def cellsY (size : GridSize α) : Nat := size.unitsY * size.cellsPerUnit

/-- The number of cells along the third axis. -/
def cellsZ (size : GridSize α) : Nat := size.unitsZ * size.cellsPerUnit

/-- The number of vertices of the grid. -/
def vertexCount (size : GridSize α) : Dim → Nat
  | .two =>
    if size.cellsX = 0 ∨ size.cellsY = 0 then 0 else (size.cellsX + 1) * (size.cellsY + 1)
  | .three =>
    if size.cellsX = 0 ∨ size.cellsY = 0 ∨ size.cellsZ = 0 then 0
    else (size.cellsX + 1) * (size.cellsY + 1) * (size.cellsZ + 1)

/-- The number of squares or cubes in the grid. -/
def cellCount (size : GridSize α) : Dim → Nat
  | .two => size.cellsX * size.cellsY
  | .three => size.cellsX * size.cellsY * size.cellsZ

/-- The side of a cell. -/
def side [Scalar α] (size : GridSize α) : α := size.unit / (size.cellsPerUnit : α)

end GridSize

namespace Mesh

variable {α : Type} [Scalar α]

/-- The cell in a column and a row of a rectangular grid. -/
def rectangleCell (width i j : Nat) : Cell .quadrilateral :=
  #v[gridVertex width i (j + 1), gridVertex width (i + 1) (j + 1), gridVertex width (i + 1) j,
    gridVertex width i j]

theorem rectangleCell_inBounds {width height i j : Nat} (hi : i < width) (hj : j < height) :
    (rectangleCell width i j).InBounds ((width + 1) * (height + 1)) := by
  intro k hk
  match k, hk with
  | 0, _ => exact gridVertex_lt (by omega) (by omega)
  | 1, _ => exact gridVertex_lt (by omega) (by omega)
  | 2, _ => exact gridVertex_lt (by omega) (by omega)
  | 3, _ => exact gridVertex_lt (by omega) (by omega)

/-- A rectangle divided into squares. -/
def rectangle (size : GridSize α) (topLeft : Vec3 α) : Mesh .quadrilateral α :=
  let width := size.cellsX
  let height := size.cellsY
  if width = 0 ∨ height = 0 then empty
  else {
    vertices := Array.ofFn fun k : Fin ((width + 1) * (height + 1)) =>
      let i : α := ((k % (width + 1) : Nat) : α)
      let j : α := ((k / (width + 1) : Nat) : α)
      ⟨topLeft.x + i * size.side, topLeft.y + -j * size.side, 0⟩
    cells := Array.ofFn fun k : Fin (width * height) =>
      rectangleCell width (k % width) (k / width)
    inBounds := by
      intro k hk
      simp only [Array.size_ofFn] at hk
      simp only [Array.getElem_ofFn, Array.size_ofFn]
      have : 0 < width := by
        rcases Nat.eq_zero_or_pos width with h | h
        · simp [h] at hk
        · exact h
      exact rectangleCell_inBounds (Nat.mod_lt _ this)
        (Nat.div_lt_of_lt_mul hk) }

/-- The number of a vertex in a grid with `width + 1` vertices per row and `height + 1` rows. -/
def boxVertex (width height i j k : Nat) : Nat :=
  (width + 1) * (height + 1) * k + gridVertex width i j

theorem boxVertex_lt {width height depth i j k : Nat} (hi : i ≤ width) (hj : j ≤ height)
    (hk : k ≤ depth) :
    boxVertex width height i j k < (width + 1) * (height + 1) * (depth + 1) := by
  have layer := gridVertex_lt hi hj
  have : (width + 1) * (height + 1) * k ≤ (width + 1) * (height + 1) * depth :=
    Nat.mul_le_mul_left _ hk
  simp only [boxVertex, Nat.mul_succ ((width + 1) * (height + 1))]
  omega

/-- The cell in a column, a row and a layer of a box-shaped grid. -/
def boxCell (width height i j k : Nat) : Cell .hexahedron :=
  #v[boxVertex width height i j k, boxVertex width height (i + 1) j k,
    boxVertex width height (i + 1) (j + 1) k, boxVertex width height i (j + 1) k,
    boxVertex width height i j (k + 1), boxVertex width height (i + 1) j (k + 1),
    boxVertex width height (i + 1) (j + 1) (k + 1), boxVertex width height i (j + 1) (k + 1)]

theorem boxCell_inBounds {width height depth i j k : Nat} (hi : i < width) (hj : j < height)
    (hk : k < depth) :
    (boxCell width height i j k).InBounds ((width + 1) * (height + 1) * (depth + 1)) := by
  intro l hl
  match l, hl with
  | 0, _ => exact boxVertex_lt (by omega) (by omega) (by omega)
  | 1, _ => exact boxVertex_lt (by omega) (by omega) (by omega)
  | 2, _ => exact boxVertex_lt (by omega) (by omega) (by omega)
  | 3, _ => exact boxVertex_lt (by omega) (by omega) (by omega)
  | 4, _ => exact boxVertex_lt (by omega) (by omega) (by omega)
  | 5, _ => exact boxVertex_lt (by omega) (by omega) (by omega)
  | 6, _ => exact boxVertex_lt (by omega) (by omega) (by omega)
  | 7, _ => exact boxVertex_lt (by omega) (by omega) (by omega)

/-- A box divided into cubes. -/
def box (size : GridSize α) (origin : Vec3 α) : Mesh .hexahedron α :=
  let width := size.cellsX
  let height := size.cellsY
  let depth := size.cellsZ
  if width = 0 ∨ height = 0 ∨ depth = 0 then empty
  else {
    vertices := Array.ofFn fun l : Fin ((width + 1) * (height + 1) * (depth + 1)) =>
      let i : α := ((l % (width + 1) : Nat) : α)
      let j : α := ((l / (width + 1) % (height + 1) : Nat) : α)
      let k : α := ((l / (width + 1) / (height + 1) : Nat) : α)
      origin + Vec3.scale ⟨i, j, k⟩ size.side
    cells := Array.ofFn fun l : Fin (width * height * depth) =>
      boxCell width height (l % width) (l / width % height) (l / width / height)
    inBounds := by
      intro l hl
      simp only [Array.size_ofFn] at hl
      simp only [Array.getElem_ofFn, Array.size_ofFn]
      have positive : 0 < width * height := by
        rcases Nat.eq_zero_or_pos (width * height) with h | h
        · simp [h] at hl
        · exact h
      refine boxCell_inBounds (Nat.mod_lt _ (Nat.pos_of_mul_pos_right positive))
        (Nat.mod_lt _ (Nat.pos_of_mul_pos_left positive)) ?_
      rw [Nat.div_div_eq_div_mul]
      exact Nat.div_lt_of_lt_mul hl }

end Mesh

end ImmersedBody
