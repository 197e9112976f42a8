import Mathlib.Algebra.Group.Pi.Basic
import Mathlib.Data.Finset.Prod
import ImmersedBody.Proofs.Mesh.Sites

/-!
# The pieces of a cube

A cube is cut into six tetrahedra around one of its diagonals.  The diagonals of opposite sides
are parallel, so that the pieces of cubes side by side fit together: three sites of a piece belong
to exactly one other piece of an unbounded grid.  It is a piece of the same cube, or of the cube
behind the side that the three sites lie in.

The grid looks the same from every cube, so it is enough to look at the pieces of one cube and of
the cubes around it.
-/

namespace ImmersedBody.Kuhn

/-- The site of a corner of the cube at the origin. -/
def corner : Nat → Site
  | 0 => ![0, 0, 0]
  | 1 => ![1, 0, 0]
  | 2 => ![1, 1, 0]
  | 3 => ![0, 1, 0]
  | 4 => ![0, 0, 1]
  | 5 => ![1, 0, 1]
  | 6 => ![1, 1, 1]
  | _ => ![0, 1, 1]

theorem corner_bounds (node : Nat) (axis : Fin 3) :
    0 ≤ corner node axis ∧ corner node axis ≤ 1 := by
  rw [corner.eq_def]
  split <;> revert axis <;> decide

/-- The pieces of a cube, by the numbers of its corners. -/
def pieces : List (Cell .tetrahedron) :=
  Cell.tetrahedra #v[0, 1, 2, 3, 4, 5, 6, 7]

/-- The sites of a piece of the cube at a base, in the order of its nodes. -/
def nodesAt (q : Site) (part : Cell .tetrahedron) : List Site :=
  part.toList.map fun node => q + corner node

/-- The sites of a piece of the cube at a base. -/
def sitesAt (q : Site) (part : Cell .tetrahedron) : Finset Site :=
  (nodesAt q part).toFinset

theorem mem_sitesAt {q p : Site} {part : Cell .tetrahedron} :
    p ∈ sitesAt q part ↔ ∃ node ∈ part.toList, q + corner node = p := by
  rw [sitesAt, List.mem_toFinset, nodesAt, List.mem_map]

/-- The sites of a piece are sites of its cube. -/
theorem bounds_of_mem_sitesAt {q p : Site} {part : Cell .tetrahedron} (member : p ∈ sitesAt q part)
    (axis : Fin 3) : q axis ≤ p axis ∧ p axis ≤ q axis + 1 := by
  rcases mem_sitesAt.mp member with ⟨node, -, rfl⟩
  have := corner_bounds node axis
  rw [Pi.add_apply]
  omega

theorem add_mem_sitesAt (shift : Site) {q p : Site} {part : Cell .tetrahedron} :
    shift + p ∈ sitesAt (shift + q) part ↔ p ∈ sitesAt q part := by
  simp only [mem_sitesAt, add_assoc, add_right_inj]

/-! ## Around a cube -/

/-- The steps from a cube to itself and to the cubes around it. -/
def steps : Finset Site :=
  Fintype.piFinset fun _ => {-1, 0, 1}

/-- The pieces of the cube at the origin and of the cubes around it that some sites belong to. -/
def around (sites : List Site) : Finset (Site × Cell .tetrahedron) :=
  (steps ×ˢ pieces.toFinset).filter fun piece => sites ⊆ nodesAt piece.1 piece.2

/-- The sites of the nodes of a piece but for one. -/
def without (node : Nat) (part : Cell .tetrahedron) : List Site :=
  (part.toList.erase node).map corner

/-- The piece on the other side of three sites of a piece. -/
structure Opposite (face : Finset Site) (piece other : Site × Cell .tetrahedron) : Prop where
  part : other.2 ∈ pieces
  ne : other ≠ piece
  /-- The three sites belong to the two pieces and to no other. -/
  only : ∀ found : Site × Cell .tetrahedron, found.2 ∈ pieces →
    (face ⊆ sitesAt found.1 found.2 ↔ found = piece ∨ found = other)
  near : ∀ axis, piece.1 axis - 1 ≤ other.1 axis ∧ other.1 axis ≤ piece.1 axis + 1
  below : ∀ axis, other.1 axis = piece.1 axis - 1 ↔ ∀ p ∈ face, p axis = piece.1 axis
  above : ∀ axis, other.1 axis = piece.1 axis + 1 ↔ ∀ p ∈ face, p axis = piece.1 axis + 1

/--
Three sites of a piece belong to two pieces around.  The other one is a cube further along an axis
exactly if the sites are at that end of the cube.
-/
theorem card_around : ∀ part ∈ pieces, ∀ node ∈ part.toList,
    (around (without node part)).card = 2 ∧
      ∀ other ∈ around (without node part), other ≠ (0, part) → ∀ axis,
        (other.1 axis = -1 ↔ ∀ p ∈ without node part, p axis = 0) ∧
          (other.1 axis = 1 ↔ ∀ p ∈ without node part, p axis = 1) := by
  decide +kernel

theorem toFinset_without : ∀ part ∈ pieces, (sitesAt 0 part).card = 4 ∧ ∀ node ∈ part.toList,
    (without node part).toFinset = (sitesAt 0 part).erase (corner node) := by
  decide +kernel

/-- Three sites of a piece are all but one of its sites. -/
theorem exists_without {part : Cell .tetrahedron} (known : part ∈ pieces) {face : Finset Site}
    (three : face.card = 3) (within : face ⊆ sitesAt 0 part) :
    ∃ node ∈ part.toList, face = (without node part).toFinset := by
  rcases toFinset_without part known with ⟨four, left⟩
  rcases Finset.exists_mem_notMem_of_card_lt_card (show face.card < (sitesAt 0 part).card by omega)
    with ⟨p, member, missing⟩
  rcases mem_sitesAt.mp member with ⟨node, named, rfl⟩
  rw [zero_add] at member missing
  refine ⟨node, named, ?_⟩
  rw [left node named]
  apply Finset.eq_of_subset_of_card_le
  · exact Finset.subset_erase.mpr ⟨within, missing⟩
  · rw [Finset.card_erase_of_mem member, four, three]

/-- Only pieces around the cube at the origin share sites with its pieces. -/
theorem mem_around {part : Cell .tetrahedron} {sites : List Site} (nonempty : sites ≠ [])
    (within : sites.toFinset ⊆ sitesAt 0 part) {found : Site × Cell .tetrahedron}
    (known : found.2 ∈ pieces) :
    found ∈ around sites ↔ sites.toFinset ⊆ sitesAt found.1 found.2 := by
  rcases List.exists_mem_of_ne_nil sites nonempty with ⟨p, member⟩
  have listed : sites ⊆ nodesAt found.1 found.2 ↔ sites.toFinset ⊆ sitesAt found.1 found.2 := by
    simp only [sitesAt, Finset.subset_iff, List.mem_toFinset]
    rfl
  rw [around, Finset.mem_filter, Finset.mem_product, List.mem_toFinset, steps,
    Fintype.mem_piFinset, listed]
  refine and_iff_right_of_imp fun inside => ⟨fun axis => ?_, known⟩
  have first := bounds_of_mem_sitesAt (within (List.mem_toFinset.mpr member)) axis
  have second := bounds_of_mem_sitesAt (inside (List.mem_toFinset.mpr member)) axis
  rw [Pi.zero_apply] at first
  simp only [Finset.mem_insert, Finset.mem_singleton]
  omega

/-- Every three sites of a piece of the cube at the origin belong to one other piece. -/
theorem exists_opposite_origin {part : Cell .tetrahedron} (known : part ∈ pieces)
    {face : Finset Site} (three : face.card = 3) (within : face ⊆ sitesAt 0 part) :
    ∃ other, Opposite face (0, part) other := by
  rcases exists_without known three within with ⟨node, named, rfl⟩
  rcases card_around part known node named with ⟨two, sides⟩
  have nonempty : without node part ≠ [] := by
    rintro empty
    rw [empty] at three
    cases three
  have self : (0, part) ∈ around (without node part) :=
    (mem_around nonempty within known).mpr within
  have one : ((around (without node part)).erase (0, part)).card = 1 := by
    rw [Finset.card_erase_of_mem self, two]
  rcases Finset.card_eq_one.mp one with ⟨other, rest⟩
  have found : other ∈ (around (without node part)).erase (0, part) := by
    rw [rest]
    exact Finset.mem_singleton_self other
  rcases Finset.mem_erase.mp found with ⟨ne, close⟩
  rcases Finset.mem_product.mp (Finset.mem_filter.mp close).1 with ⟨step, otherPart⟩
  refine ⟨other, List.mem_toFinset.mp otherPart, ne, ?_, ?_, ?_, ?_⟩
  · intro found partOf
    rw [← mem_around nonempty within partOf, ← Finset.insert_erase self, rest, Finset.mem_insert,
      Finset.mem_singleton]
  · intro axis
    have choices := Fintype.mem_piFinset.mp step axis
    simp only [Finset.mem_insert, Finset.mem_singleton] at choices
    show 0 - 1 ≤ other.1 axis ∧ other.1 axis ≤ 0 + 1
    omega
  · simp only [List.mem_toFinset]
    exact fun axis => (sides other close ne axis).1
  · simp only [List.mem_toFinset]
    exact fun axis => (sides other close ne axis).2

/-- All cubes of a grid look the same. -/
theorem Opposite.shift {face : Finset Site} {piece other : Site × Cell .tetrahedron}
    (opposite : Opposite face piece other) (q : Site) :
    Opposite (face.image (q + ·)) (q + piece.1, piece.2) (q + other.1, other.2) where
  part := opposite.part
  ne := by
    intro same
    rcases Prod.mk.inj same with ⟨base, part⟩
    exact opposite.ne (Prod.ext (add_left_cancel base) part)
  only := by
    intro found partOf
    have moved := opposite.only (-q + found.1, found.2) partOf
    have inside : face.image (q + ·) ⊆ sitesAt found.1 found.2 ↔
        face ⊆ sitesAt (-q + found.1) found.2 := by
      simp only [Finset.subset_iff, Finset.forall_mem_image]
      refine forall₂_congr fun p _ => ?_
      rw [← add_mem_sitesAt (-q), neg_add_cancel_left]
    rw [inside, moved]
    simp only [Prod.ext_iff, neg_add_eq_iff_eq_add]
  near := by
    intro axis
    have := opposite.near axis
    simp only [Pi.add_apply]
    omega
  below := by
    intro axis
    rw [Finset.forall_mem_image]
    simp only [Pi.add_apply, add_sub_assoc, add_right_inj]
    exact opposite.below axis
  above := by
    intro axis
    rw [Finset.forall_mem_image]
    simp only [Pi.add_apply, add_assoc, add_right_inj]
    exact opposite.above axis

/-- Every three sites of a piece belong to one other piece. -/
theorem exists_opposite {q : Site} {part : Cell .tetrahedron} (known : part ∈ pieces)
    {face : Finset Site} (three : face.card = 3) (within : face ⊆ sitesAt q part) :
    ∃ other, Opposite face (q, part) other := by
  have back : (face.image (-q + ·)).image (q + ·) = face := by
    have undo : (q + ·) ∘ (-q + ·) = (id : Site → Site) :=
      funext fun p => add_neg_cancel_left q p
    rw [Finset.image_image, undo, Finset.image_id]
  have inside : face.image (-q + ·) ⊆ sitesAt 0 part := by
    rw [Finset.image_subset_iff]
    intro p member
    rw [← neg_add_cancel q]
    exact (add_mem_sitesAt (-q)).mpr (within member)
  have count : (face.image (-q + ·)).card = 3 := by
    rw [Finset.card_image_of_injective _ (add_right_injective (-q)), three]
  rcases exists_opposite_origin known count inside with ⟨other, opposite⟩
  have moved := opposite.shift q
  rw [back, add_zero] at moved
  exact ⟨_, moved⟩

end ImmersedBody.Kuhn
