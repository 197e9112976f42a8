import ImmersedBody.Proofs.Element.Measures
import ImmersedBody.Proofs.Blocks
import ImmersedBody.Mesh.Split

/-!
# Splitting cells into simplices

The parts of a cell stand one after the other in the place of the cell.  Two triangles
have the area of the quadrilateral that they come from, wherever its vertices are, and
they are oriented if the quadrilateral is so at its corners.  Six tetrahedra have equal
shares of the volume of a hexahedron that is an affine image of the reference cube.

The main theorem is `Mesh.splitting_preserves_measure`.
-/

namespace ImmersedBody

open Shape

variable {α : Type}

/-! ## Parts of elements -/

namespace Element

/-- The triangle of three nodes of a quadrilateral. -/
def triangleOf (quad : Element .quadrilateral α) (i j k : Fin 4) : Element .triangle α :=
  #v[quad[i], quad[j], quad[k]]

/-- The two triangles of a quadrilateral, cut from its first to its third node. -/
def triangles (quad : Element .quadrilateral α) : List (Element .triangle α) :=
  [quad.triangleOf 0 1 2, quad.triangleOf 0 2 3]

/-- The tetrahedron of four nodes of a hexahedron. -/
def tetrahedronOf (hex : Element .hexahedron α) (i j k l : Fin 8) : Element .tetrahedron α :=
  #v[hex[i], hex[j], hex[k], hex[l]]

/-- The six tetrahedra of a hexahedron around the diagonal from its first to its seventh node. -/
def tetrahedra (hex : Element .hexahedron α) : List (Element .tetrahedron α) :=
  [hex.tetrahedronOf 0 1 2 6, hex.tetrahedronOf 0 2 3 6, hex.tetrahedronOf 0 3 7 6,
    hex.tetrahedronOf 0 7 4 6, hex.tetrahedronOf 0 4 5 6, hex.tetrahedronOf 0 5 1 6]

/-- The first triangle has the volume factor of the quadrilateral at its second node. -/
theorem volumeFactor_firstTriangle (quad : Element .quadrilateral ℝ) (ξ : Vec3 ℝ) :
    (quad.triangleOf 0 1 2).volumeFactor ξ = quad.volumeFactor ⟨1, -1, 0⟩ := by
  rw [volumeFactor_triangle, quad.eq_nodes]
  simp [triangleOf, volumeFactor, derivative, jacobian, gradients, squareCorners, hat, hatSlope,
    Dim.det, Mat3.minorDet, Mat3.outer, Vec3.cross]
  ring

/-- The second triangle has the volume factor of the quadrilateral at its fourth node. -/
theorem volumeFactor_secondTriangle (quad : Element .quadrilateral ℝ) (ξ : Vec3 ℝ) :
    (quad.triangleOf 0 2 3).volumeFactor ξ = quad.volumeFactor ⟨-1, 1, 0⟩ := by
  rw [volumeFactor_triangle, quad.eq_nodes]
  simp [triangleOf, volumeFactor, derivative, jacobian, gradients, squareCorners, hat, hatSlope,
    Dim.det, Mat3.minorDet, Mat3.outer, Vec3.cross]
  ring

/-- The triangles of a quadrilateral have its area. -/
theorem sum_measure_triangles (quad : Element .quadrilateral ℝ) :
    (quad.triangles.map measure).sum = quad.measure := by
  simp only [triangles, List.map_cons, List.map_nil, List.sum_cons, List.sum_nil,
    measure_triangle _ 0, volumeFactor_firstTriangle, volumeFactor_secondTriangle,
    measure_quadrilateral]
  rw [volumeFactor_quadrilateral quad ⟨1, -1, 0⟩, volumeFactor_quadrilateral quad ⟨-1, 1, 0⟩]
  ring

/-- The triangles of a quadrilateral are oriented if it is so at its corners. -/
theorem measure_triangles_pos {quad : Element .quadrilateral ℝ}
    (oriented : ∀ corner ∈ squareCorners, 0 < quad.volumeFactor corner) :
    ∀ part ∈ quad.triangles, 0 < part.measure := by
  intro part member
  have first := oriented ⟨1, -1, 0⟩ (by simp [squareCorners])
  have second := oriented ⟨-1, 1, 0⟩ (by simp [squareCorners])
  rcases List.mem_cons.mp member with rfl | member
  · rw [measure_triangle _ 0, volumeFactor_firstTriangle]
    positivity
  · rw [List.mem_singleton.mp member, measure_triangle _ 0, volumeFactor_secondTriangle]
    positivity

/-- The tetrahedra of the reference cube have the volume factor one. -/
theorem volumeFactor_tetrahedra_cubeCorners (ξ : Vec3 ℝ) :
    ∀ part ∈ tetrahedra (cubeCorners : Element .hexahedron ℝ), part.volumeFactor ξ = 1 := by
  intro part member
  rw [volumeFactor_tetrahedron]
  simp only [tetrahedra, List.mem_cons, List.not_mem_nil, or_false] at member
  rcases member with rfl | rfl | rfl | rfl | rfl | rfl <;>
    simp [tetrahedronOf, cubeCorners, Vec3.cross, Vec3.dot] <;> norm_num

theorem tetrahedra_map (hex : Element .hexahedron α) (f : Vec3 α → Vec3 α) :
    tetrahedra (hex.map f : Element .hexahedron α) =
      hex.tetrahedra.map fun part => (part.map f : Element .tetrahedron α) := by
  simp [tetrahedra, tetrahedronOf]

/-- The tetrahedra of a parallelepiped have equal shares of its volume. -/
theorem measure_tetrahedra_image (a : Mat3 ℝ) (b : Vec3 ℝ) :
    ∀ part ∈ tetrahedra (hexahedron.image a b), part.measure = 8 * a.det / 6 := by
  intro part member
  rw [image, tetrahedra_map] at member
  rcases List.mem_map.mp member with ⟨reference, known, rfl⟩
  rw [measure_tetrahedron _ 0, volumeFactor_affine rfl,
    volumeFactor_tetrahedra_cubeCorners 0 reference known]
  ring

end Element

/-! ## Parts of cells -/

namespace Mesh

/-- The cells of a mesh are replaced by so many parts each, in the places of a block. -/
structure Splits {coarse fine : Shape} (mesh : Mesh coarse α) (split : Mesh fine α)
    (parts : Cell coarse → List (Cell fine)) (count : Nat) : Prop where
  vertices : split.vertices = mesh.vertices
  size : split.cells.size = count * mesh.cells.size
  places : ∀ k (inside : k < mesh.cells.size), ∀ j < count,
    split.cells[count * k + j]? = (parts mesh.cells[k])[j]?

theorem splits_splitCells {coarse fine : Shape} (mesh : Mesh coarse α)
    {parts : Cell coarse → List (Cell fine)} {count : Nat}
    (lengths : ∀ cell, (parts cell).length = count)
    (inBounds : ∀ cell : Cell coarse, cell.InBounds mesh.vertices.size →
      ∀ part ∈ parts cell, part.InBounds mesh.vertices.size) :
    mesh.Splits (mesh.splitCells parts inBounds) parts count where
  vertices := rfl
  size := by
    rw [splitCells, ← Array.length_toList, Array.toList_flatMap]
    simp [lengths, Nat.mul_comm]
  places := by
    intro k inside j below
    rw [splitCells, ← Array.getElem?_toList, Array.toList_flatMap, Nat.mul_comm count k]
    rw [getElem?_flatMap_of_length lengths below]
    simp [inside]

/-- The cell with a number cuts out the element with this number. -/
theorem element?_of_getElem? {shape : Shape} {mesh : Mesh shape α} {number : Nat}
    {cell : Cell shape} (found : mesh.cells[number]? = some cell) :
    ∃ inBounds, mesh.element? number = some (cell.element mesh.vertices inBounds) := by
  rcases Array.getElem?_eq_some_iff.mp found with ⟨inside, rfl⟩
  exact ⟨mesh.inBounds number inside, dif_pos inside⟩

theorem splits_triangulated (mesh : Mesh .quadrilateral α) :
    mesh.Splits mesh.triangulated Cell.triangles 2 := by
  have lengths : ∀ cell : Cell .quadrilateral, cell.triangles.length = 2 := fun _ => rfl
  exact mesh.splits_splitCells lengths _

theorem splits_tetrahedralized (mesh : Mesh .hexahedron α) :
    mesh.Splits mesh.tetrahedralized Cell.tetrahedra 6 := by
  have lengths : ∀ cell : Cell .hexahedron, cell.tetrahedra.length = 6 := fun _ => rfl
  exact mesh.splits_splitCells lengths _

/-- The triangles in the places of a quadrilateral are those of its element. -/
theorem element?_triangulated (mesh : Mesh .quadrilateral α) {k j : Nat}
    (inside : k < mesh.cells.size) (below : j < 2) :
    mesh.triangulated.element? (2 * k + j) = (mesh.element k inside).triangles[j]? := by
  have place := mesh.splits_triangulated.places k inside j below
  match j, below with
  | 0, _ | 1, _ =>
      rcases element?_of_getElem? place with ⟨inBounds, found⟩
      rw [found]
      apply congrArg some
      apply Vector.ext
      intro i bound
      match i, bound with
      | 0, _ | 1, _ | 2, _ =>
          simp [Cell.element, Mesh.element, Element.triangleOf, triangulated, splitCells]

/-- The tetrahedra in the places of a hexahedron are those of its element. -/
theorem element?_tetrahedralized (mesh : Mesh .hexahedron α) {k j : Nat}
    (inside : k < mesh.cells.size) (below : j < 6) :
    mesh.tetrahedralized.element? (6 * k + j) = (mesh.element k inside).tetrahedra[j]? := by
  have place := mesh.splits_tetrahedralized.places k inside j below
  match j, below with
  | 0, _ | 1, _ | 2, _ | 3, _ | 4, _ | 5, _ =>
      rcases element?_of_getElem? place with ⟨inBounds, found⟩
      rw [found]
      apply congrArg some
      apply Vector.ext
      intro i bound
      match i, bound with
      | 0, _ | 1, _ | 2, _ | 3, _ =>
          simp [Cell.element, Mesh.element, Element.tetrahedronOf, tetrahedralized, splitCells]

/--
Every quadrilateral of a mesh is replaced by two triangles, in the places of a block.
Their areas add up to that of the quadrilateral, which is four times its volume factor
at the center, and they are positive if the volume factor is so at the four corners.
Every hexahedron is replaced by six tetrahedra.  If it is the image of the reference
cube under an affine map, each of them has a sixth of the volume, which is eight times
the determinant of the map.
-/
theorem splitting_preserves_measure :
    (∀ mesh : Mesh .quadrilateral ℝ,
      mesh.triangulated.vertices = mesh.vertices ∧
      mesh.triangulated.cells.size = 2 * mesh.cells.size ∧
      ∀ k (inside : k < mesh.cells.size),
        let quad := mesh.element k inside
        (∀ j < 2, mesh.triangulated.cells[2 * k + j]? = mesh.cells[k].triangles[j]? ∧
          mesh.triangulated.element? (2 * k + j) = quad.triangles[j]?) ∧
        (quad.triangles.map Element.measure).sum = quad.measure ∧
        quad.measure = 4 * quad.volumeFactor 0 ∧
        ((∀ corner ∈ squareCorners, 0 < quad.volumeFactor corner) →
          ∀ part ∈ quad.triangles, 0 < part.measure)) ∧
    ∀ mesh : Mesh .hexahedron ℝ,
      mesh.tetrahedralized.vertices = mesh.vertices ∧
      mesh.tetrahedralized.cells.size = 6 * mesh.cells.size ∧
      ∀ k (inside : k < mesh.cells.size),
        let hex := mesh.element k inside
        (∀ j < 6, mesh.tetrahedralized.cells[6 * k + j]? = mesh.cells[k].tetrahedra[j]? ∧
          mesh.tetrahedralized.element? (6 * k + j) = hex.tetrahedra[j]?) ∧
        ∀ (a : Mat3 ℝ) (b : Vec3 ℝ), hex = hexahedron.image a b →
          hex.measure = 8 * a.det ∧ ∀ part ∈ hex.tetrahedra, part.measure = 8 * a.det / 6 := by
  refine ⟨fun mesh => ?_, fun mesh => ?_⟩
  · have splits := mesh.splits_triangulated
    refine ⟨splits.vertices, splits.size, ?_⟩
    intro k inside quad
    refine ⟨?_, quad.sum_measure_triangles, quad.measure_quadrilateral, ?_⟩
    · exact fun j below => ⟨splits.places k inside j below, mesh.element?_triangulated inside below⟩
    · exact Element.measure_triangles_pos
  · have splits := mesh.splits_tetrahedralized
    refine ⟨splits.vertices, splits.size, ?_⟩
    intro k inside hex
    refine ⟨?_, ?_⟩
    · exact fun j below =>
        ⟨splits.places k inside j below, mesh.element?_tetrahedralized inside below⟩
    · intro a b affine
      rw [affine]
      exact ⟨Element.measure_image_hexahedron a b, Element.measure_tetrahedra_image a b⟩

/-- A quadrilateral without parallel sides. -/
noncomputable def slanted : Mesh .quadrilateral ℝ where
  vertices := #[⟨-1, -1, 0⟩, ⟨1, 0, 0⟩, ⟨1, 1, 0⟩, ⟨0, 1, 0⟩]
  cells := #[.range 4]
  inBounds := by decide

theorem volumeFactor_slanted (ξ : Vec3 ℝ) :
    (slanted.element 0 (by decide)).volumeFactor ξ = 1 / 2 - ξ.x / 8 - ξ.y / 8 := by
  have nodes : slanted.element 0 (by decide) =
      (#v[⟨-1, -1, 0⟩, ⟨1, 0, 0⟩, ⟨1, 1, 0⟩, ⟨0, 1, 0⟩] : Vector (Vec3 ℝ) 4) := by
    apply Vector.ext
    intro i bound
    match i, bound with
    | 0, _ | 1, _ | 2, _ | 3, _ => rfl
  rw [nodes]
  simp [Element.volumeFactor, Element.derivative, jacobian, gradients, squareCorners, hat,
    hatSlope, Dim.det, Mat3.minorDet, Mat3.outer]
  ring

/-- The linear part of the map to a sheared brick. -/
noncomputable def shear : Mat3 ℝ :=
  ⟨⟨1, 1, 0⟩, ⟨-1, 1, 0⟩, ⟨0, 1, 1⟩⟩

/-- A sheared brick. -/
noncomputable def brick : Mesh .hexahedron ℝ where
  vertices := (hexahedron.image shear ⟨1, 0, 0⟩).toArray
  cells := #[.range 8]
  inBounds := by
    rw [Vector.size_toArray]
    decide

theorem element_brick : brick.element 0 (by decide) = hexahedron.image shear ⟨1, 0, 0⟩ := by
  apply Vector.ext
  intro i bound
  match i, bound with
  | 0, _ | 1, _ | 2, _ | 3, _ | 4, _ | 5, _ | 6, _ | 7, _ => rfl

/-- The triangles of the quadrilateral and the last tetrahedron of the brick. -/
theorem splitting_preserves_measure_slanted :
    (∃ first second : Element .triangle ℝ,
      slanted.triangulated.element? 0 = some first ∧
      slanted.triangulated.element? 1 = some second ∧
      first.measure + second.measure = 2 ∧ 0 < first.measure ∧ 0 < second.measure) ∧
    ∃ part : Element .tetrahedron ℝ,
      brick.tetrahedralized.element? 5 = some part ∧ part.measure = 8 / 3 := by
  rcases splitting_preserves_measure with ⟨quads, hexes⟩
  constructor
  · rcases quads slanted with ⟨-, -, each⟩
    rcases each 0 (by decide) with ⟨places, sum, factor, oriented⟩
    have positive : ∀ corner ∈ squareCorners,
        0 < (slanted.element 0 (by decide)).volumeFactor corner := by
      simp only [volumeFactor_slanted, squareCorners, Vector.mem_mk, List.mem_toArray,
        List.mem_cons, List.not_mem_nil, or_false, forall_eq_or_imp, forall_eq]
      norm_num
    have parts := oriented positive
    refine ⟨_, _, (places 0 (by decide)).2, (places 1 (by decide)).2, ?_,
      parts _ List.mem_cons_self, parts _ (List.mem_cons_of_mem _ List.mem_cons_self)⟩
    have total := sum.trans factor
    rw [volumeFactor_slanted] at total
    simp only [Element.triangles, List.map_cons, List.map_nil, List.sum_cons, List.sum_nil,
      add_zero] at total
    rw [total]
    norm_num
  · rcases hexes brick with ⟨-, -, each⟩
    rcases each 0 (by decide) with ⟨places, shares⟩
    have volume := (shares shear ⟨1, 0, 0⟩ element_brick).2
    refine ⟨_, (places 5 (by decide)).2, ?_⟩
    rw [volume _ (by simp [Element.tetrahedra])]
    norm_num [shear, Mat3.det]

end Mesh

end ImmersedBody
