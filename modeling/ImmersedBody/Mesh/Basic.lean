import ImmersedBody.Element.Map

/-!
# Meshes

A mesh has vertices and cells of one shape, and every cell names its vertices by their numbers.
The numbers are in bounds: `Mesh.ofCells` refuses a cell that names a vertex which is not there.

In a planar mesh only the first two coordinates of a vertex count.
-/

namespace ImmersedBody

/-- The numbers of the vertices of a cell, in the order of the nodes of its shape. -/
abbrev Cell (shape : Shape) := Vector Nat shape.nodeCount

namespace Cell

variable {α : Type} {shape : Shape}

/-- Whether every vertex of a cell is one of so many. -/
def InBounds (cell : Cell shape) (vertices : Nat) : Prop :=
  ∀ i (h : i < shape.nodeCount), cell[i] < vertices

instance (cell : Cell shape) (vertices : Nat) : Decidable (cell.InBounds vertices) := by
  unfold InBounds
  infer_instance

/-- The cell with the given vertices, if their number is right. -/
def ofList? (shape : Shape) (vertices : List Nat) : Option (Cell shape) :=
  if h : vertices.length = shape.nodeCount then some ⟨vertices.toArray, by simp [h]⟩ else none

/-- The element that a cell cuts out of a mesh with these vertices. -/
def element (cell : Cell shape) (vertices : Array (Vec3 α)) (h : cell.InBounds vertices.size) :
    Element shape α :=
  Vector.ofFn fun i =>
    have := h i i.isLt
    vertices[cell[i]]

/-- The element that a cell cuts out of a list of vertices, if it names none that is missing. -/
def element? (cell : Cell shape) (vertices : Array (Vec3 α)) : Option (Element shape α) :=
  if h : cell.InBounds vertices.size then some (cell.element vertices h) else none

/-- The lowest number of a vertex of the cell. -/
def lowest (cell : Cell shape) : Nat :=
  have := shape.nodeCount_pos
  cell.foldl min cell[0]

end Cell

/-- Vertices and the cells between them. -/
structure Mesh (shape : Shape) (α : Type) where
  vertices : Array (Vec3 α)
  cells : Array (Cell shape)
  inBounds : ∀ i (h : i < cells.size), cells[i].InBounds vertices.size

namespace Mesh

variable {α : Type} {shape : Shape}

/-- The first cell that names a missing vertex, and the first such vertex. -/
def missingVertex? (vertices : Nat) (cells : Array (Cell shape)) : Option (Nat × Nat) :=
  cells.toList.zipIdx.findSome? fun (cell, number) =>
    (cell.toList.find? fun vertex => vertices ≤ vertex).map fun vertex => (number, vertex)

theorem inBounds_of_missingVertex?_eq_none {vertices : Nat} {cells : Array (Cell shape)}
    (h : missingVertex? vertices cells = none) (i : Nat) (hi : i < cells.size) :
    cells[i].InBounds vertices := by
  intro j hj
  simp only [missingVertex?, List.findSome?_eq_none_iff, Option.map_eq_none_iff,
    List.find?_eq_none] at h
  have member : (cells[i], i) ∈ cells.toList.zipIdx := by
    simp [List.mem_zipIdx_iff_getElem?, hi]
  have := h _ member cells[i][j] (by simp)
  simpa using this

/-- The mesh with the given vertices and cells. -/
def ofCells (vertices : Array (Vec3 α)) (cells : Array (Cell shape)) :
    Except Fault (Mesh shape α) :=
  match h : missingVertex? vertices.size cells with
  | some (cell, vertex) => .error (.vertexOutOfBounds cell vertex vertices.size)
  | none => .ok ⟨vertices, cells, inBounds_of_missingVertex?_eq_none h⟩

/-- The mesh without cells. -/
def empty : Mesh shape α where
  vertices := #[]
  cells := #[]
  inBounds := fun _ h => absurd h (by simp)

/-- The element in the place of a cell. -/
def element (mesh : Mesh shape α) (i : Nat) (h : i < mesh.cells.size) : Element shape α :=
  mesh.cells[i].element mesh.vertices (mesh.inBounds i h)

/-- The element in the place of the cell with a number, if there is one. -/
def element? (mesh : Mesh shape α) (i : Nat) : Option (Element shape α) :=
  if h : i < mesh.cells.size then some (mesh.element i h) else none

/-- The coordinates of all vertices, one vertex after the other. -/
def coordinates (mesh : Mesh shape α) : Array α :=
  mesh.vertices.flatMap fun vertex => (shape.dim.coords vertex).toArray

end Mesh

end ImmersedBody
