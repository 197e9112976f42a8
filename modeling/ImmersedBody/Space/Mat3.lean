import ImmersedBody.Space.Vec3

/-!
# Matrices in space

A matrix is given by its three rows.  Rotations, Jacobians and inertia tensors are matrices.
-/

namespace ImmersedBody

/-- A matrix with three rows of three entries. -/
@[ext]
structure Mat3 (α : Type) where
  row0 : Vec3 α
  row1 : Vec3 α
  row2 : Vec3 α
deriving DecidableEq, BEq

namespace Mat3

variable {α : Type}

instance [Zero α] : Zero (Mat3 α) := ⟨⟨0, 0, 0⟩⟩

instance [Zero α] [One α] : One (Mat3 α) := ⟨⟨⟨1, 0, 0⟩, ⟨0, 1, 0⟩, ⟨0, 0, 1⟩⟩⟩

instance [Add α] : Add (Mat3 α) := ⟨fun a b => ⟨a.row0 + b.row0, a.row1 + b.row1, a.row2 + b.row2⟩⟩

instance [Sub α] : Sub (Mat3 α) := ⟨fun a b => ⟨a.row0 - b.row0, a.row1 - b.row1, a.row2 - b.row2⟩⟩

/-- Every entry multiplied by a factor, which stands on the right. -/
def scale [Mul α] (a : Mat3 α) (factor : α) : Mat3 α :=
  ⟨a.row0.scale factor, a.row1.scale factor, a.row2.scale factor⟩

/-- The matrix whose entry in row `i` and column `j` is `v i * w j`. -/
def outer [Mul α] (v w : Vec3 α) : Mat3 α :=
  ⟨⟨v.x * w.x, v.x * w.y, v.x * w.z⟩, ⟨v.y * w.x, v.y * w.y, v.y * w.z⟩,
    ⟨v.z * w.x, v.z * w.y, v.z * w.z⟩⟩

/-- The product of a matrix and a column vector. -/
def apply [Add α] [Mul α] (a : Mat3 α) (v : Vec3 α) : Vec3 α :=
  ⟨a.row0.dot v, a.row1.dot v, a.row2.dot v⟩

/-- The matrix with rows and columns exchanged. -/
def transpose (a : Mat3 α) : Mat3 α :=
  ⟨⟨a.row0.x, a.row1.x, a.row2.x⟩, ⟨a.row0.y, a.row1.y, a.row2.y⟩, ⟨a.row0.z, a.row1.z, a.row2.z⟩⟩

/-- The product of two matrices. -/
def mul [Add α] [Mul α] (a b : Mat3 α) : Mat3 α :=
  let columns := b.transpose
  ⟨columns.apply a.row0, columns.apply a.row1, columns.apply a.row2⟩

/-- The determinant of the upper left block with two rows and two columns. -/
def minorDet [Sub α] [Mul α] (a : Mat3 α) : α :=
  a.row0.x * a.row1.y - a.row1.x * a.row0.y

/-- The determinant, expanded along the first row. -/
def det [Add α] [Sub α] [Mul α] (a : Mat3 α) : α :=
  a.row0.x * (a.row1.y * a.row2.z - a.row2.y * a.row1.z)
    - a.row0.y * (a.row1.x * a.row2.z - a.row2.x * a.row1.z)
    + a.row0.z * (a.row1.x * a.row2.y - a.row2.x * a.row1.y)

/-- The entries, row by row. -/
def toVector (a : Mat3 α) : Vector α 9 :=
  #v[a.row0.x, a.row0.y, a.row0.z, a.row1.x, a.row1.y, a.row1.z, a.row2.x, a.row2.y, a.row2.z]

/-- The matrix with the given entries, row by row. -/
def ofVector (entries : Vector α 9) : Mat3 α :=
  ⟨⟨entries[0], entries[1], entries[2]⟩, ⟨entries[3], entries[4], entries[5]⟩,
    ⟨entries[6], entries[7], entries[8]⟩⟩

@[simp] theorem ofVector_toVector (a : Mat3 α) : ofVector a.toVector = a := rfl

/-- The rows in order. -/
def rows (a : Mat3 α) : List (Vec3 α) :=
  [a.row0, a.row1, a.row2]

section

variable [Zero α]

@[simp] theorem zero_row0 : (0 : Mat3 α).row0 = 0 := rfl
@[simp] theorem zero_row1 : (0 : Mat3 α).row1 = 0 := rfl
@[simp] theorem zero_row2 : (0 : Mat3 α).row2 = 0 := rfl

end

section

variable [Add α] (a b : Mat3 α)

@[simp] theorem add_row0 : (a + b).row0 = a.row0 + b.row0 := rfl
@[simp] theorem add_row1 : (a + b).row1 = a.row1 + b.row1 := rfl
@[simp] theorem add_row2 : (a + b).row2 = a.row2 + b.row2 := rfl

end

section

variable [Sub α] (a b : Mat3 α)

@[simp] theorem sub_row0 : (a - b).row0 = a.row0 - b.row0 := rfl
@[simp] theorem sub_row1 : (a - b).row1 = a.row1 - b.row1 := rfl
@[simp] theorem sub_row2 : (a - b).row2 = a.row2 - b.row2 := rfl

end

end Mat3

end ImmersedBody
