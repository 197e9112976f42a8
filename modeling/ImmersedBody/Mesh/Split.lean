import ImmersedBody.Mesh.Grid

/-!
# Splitting cells into simplices

A quadrilateral is cut along the diagonal from its first to its third vertex.  A hexahedron is cut
into six tetrahedra of one orientation that share the diagonal from its first to its seventh vertex.
-/

namespace ImmersedBody

namespace Cell

/-- The two triangles of a quadrilateral. -/
def triangles (cell : Cell .quadrilateral) : List (Cell .triangle) :=
  [#v[cell[0], cell[1], cell[2]], #v[cell[0], cell[2], cell[3]]]

/-- The six tetrahedra of a hexahedron. -/
def tetrahedra (cell : Cell .hexahedron) : List (Cell .tetrahedron) :=
  [#v[cell[0], cell[1], cell[2], cell[6]], #v[cell[0], cell[2], cell[3], cell[6]],
    #v[cell[0], cell[3], cell[7], cell[6]], #v[cell[0], cell[7], cell[4], cell[6]],
    #v[cell[0], cell[4], cell[5], cell[6]], #v[cell[0], cell[5], cell[1], cell[6]]]

theorem triangles_inBounds {cell : Cell .quadrilateral} {vertices : Nat}
    (h : cell.InBounds vertices) (part : Cell .triangle) (member : part ∈ cell.triangles) :
    part.InBounds vertices := by
  simp only [triangles, List.mem_cons, List.not_mem_nil, or_false] at member
  rcases member with rfl | rfl <;>
  · intro k hk
    match k, hk with
    | 0, _ | 1, _ | 2, _ => exact h _ _

theorem tetrahedra_inBounds {cell : Cell .hexahedron} {vertices : Nat}
    (h : cell.InBounds vertices) (part : Cell .tetrahedron) (member : part ∈ cell.tetrahedra) :
    part.InBounds vertices := by
  simp only [tetrahedra, List.mem_cons, List.not_mem_nil, or_false] at member
  rcases member with rfl | rfl | rfl | rfl | rfl | rfl <;>
  · intro k hk
    match k, hk with
    | 0, _ | 1, _ | 2, _ | 3, _ => exact h _ _

end Cell

/-- The shape of the cells that cells of a shape are parts of in a grid. -/
def Shape.unsplit : Shape → Shape
  | .triangle | .quadrilateral => .quadrilateral
  | .tetrahedron | .hexahedron => .hexahedron

namespace Mesh

variable {α : Type}

/-- The mesh with the same vertices and every cell replaced by its parts. -/
def splitCells {coarse fine : Shape} (mesh : Mesh coarse α) (parts : Cell coarse → List (Cell fine))
    (h : ∀ cell : Cell coarse, cell.InBounds mesh.vertices.size →
      ∀ part ∈ parts cell, part.InBounds mesh.vertices.size) : Mesh fine α where
  vertices := mesh.vertices
  cells := mesh.cells.flatMap fun cell => (parts cell).toArray
  inBounds := by
    intro i hi
    have member : (mesh.cells.flatMap fun cell => (parts cell).toArray)[i] ∈
        mesh.cells.flatMap fun cell => (parts cell).toArray := Array.getElem_mem hi
    obtain ⟨cell, cellMember, partMember⟩ := Array.mem_flatMap.mp member
    obtain ⟨j, hj, rfl⟩ := Array.mem_iff_getElem.mp cellMember
    exact h _ (mesh.inBounds j hj) _ (by simpa using partMember)

/-- The triangles of a mesh of quadrilaterals. -/
def triangulated (mesh : Mesh .quadrilateral α) : Mesh .triangle α :=
  mesh.splitCells Cell.triangles fun _ h => Cell.triangles_inBounds h

/-- The tetrahedra of a mesh of hexahedra. -/
def tetrahedralized (mesh : Mesh .hexahedron α) : Mesh .tetrahedron α :=
  mesh.splitCells Cell.tetrahedra fun _ h => Cell.tetrahedra_inBounds h

/--
The uniform grid with cells of a shape: from its top left corner down in the plane, and from the
corner with the smallest coordinates up in space.  Simplices are parts of squares and cubes.
-/
def grid [Scalar α] (size : GridSize α) (corner : Vec3 α) : (shape : Shape) → Mesh shape α
  | .triangle => (rectangle size corner).triangulated
  | .quadrilateral => rectangle size corner
  | .tetrahedron => (box size corner).tetrahedralized
  | .hexahedron => box size corner

/--
How many numbers there is room for in the list of all simplices of a grid, to which those of one
square or cube after the other are added.
-/
def simplexRoom (size : GridSize α) : Shape → Nat
  | .triangle => roomFor (size.cellCount .two) * (2 * Shape.triangle.nodeCount)
  | .tetrahedron => roomFor (size.cellCount .three) * (6 * Shape.tetrahedron.nodeCount)
  | .quadrilateral | .hexahedron => 0

/--
The uniform grid, if words can hold the numbers of its vertices, and the vertices, the squares or
cubes and the simplices each fit into memory.
-/
def grid? [Scalar α] (size : GridSize α) (corner : Vec3 α) (shape : Shape) :
    Except Fault (Mesh shape α) := do
  Fault.checkWord (size.vertexCount shape.dim)
  Fault.checkMemory (size.vertexCount shape.dim * shape.dim.size)
  Fault.checkMemory (size.cellCount shape.dim * shape.unsplit.nodeCount)
  Fault.checkMemory (simplexRoom size shape)
  return grid size corner shape

end Mesh

end ImmersedBody
