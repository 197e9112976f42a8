import ImmersedBody.Space.Mat3

/-!
# Planar and spatial structures

A structure moves in the plane or in space.  Its nodes carry two or three numbers, and its rigid
motion has three or six degrees of freedom.  Between the two views stand `Dim.coords`, which keeps
the leading components of a vector, and `Vec3.ofCoords`, which fills the missing ones with zeros.
-/

namespace ImmersedBody

/-- The dimension in which a structure moves. -/
inductive Dim where
  | two
  | three
deriving DecidableEq, Repr

namespace Dim

/-- The number of coordinates of a node. -/
@[reducible]
def size : Dim → Nat
  | two => 2
  | three => 3

/-- The number of rigid degrees of freedom. -/
@[reducible]
def rigidSize : Dim → Nat
  | two => 3
  | three => 6

theorem size_pos (dim : Dim) : 0 < dim.size := by
  cases dim <;> decide

variable {α : Type}

/-- The leading components of a vector, as many as the dimension has. -/
def coords : (dim : Dim) → Vec3 α → Vector α dim.size
  | two, v => #v[v.x, v.y]
  | three, v => #v[v.x, v.y, v.z]

/-- The vector with the given leading components and zeros behind them. -/
def embed [Zero α] : (dim : Dim) → Vector α dim.size → Vec3 α
  | two, leading => ⟨leading[0], leading[1], 0⟩
  | three, leading => ⟨leading[0], leading[1], leading[2]⟩

@[simp]
theorem coords_embed [Zero α] (dim : Dim) (leading : Vector α dim.size) :
    dim.coords (dim.embed leading) = leading := by
  cases dim
  · ext i h
    match i, h with
    | 0, _ | 1, _ => rfl
  · ext i h
    match i, h with
    | 0, _ | 1, _ | 2, _ => rfl

/--
The generalized vector of a rigid motion: the linear part followed by the angular part, of which
only the component about the `z` axis remains in the plane.
-/
def pack : (dim : Dim) → (linear angular : Vec3 α) → Vector α dim.rigidSize
  | two, linear, angular => #v[linear.x, linear.y, angular.z]
  | three, linear, angular => #v[linear.x, linear.y, linear.z, angular.x, angular.y, angular.z]

/-- The linear part of a generalized vector. -/
def linearPart [Zero α] : (dim : Dim) → Vector α dim.rigidSize → Vec3 α
  | two, dofs => ⟨dofs[0], dofs[1], 0⟩
  | three, dofs => ⟨dofs[0], dofs[1], dofs[2]⟩

/-- The angular part of a generalized vector. -/
def angularPart [Zero α] : (dim : Dim) → Vector α dim.rigidSize → Vec3 α
  | two, dofs => ⟨0, 0, dofs[2]⟩
  | three, dofs => ⟨dofs[3], dofs[4], dofs[5]⟩

/-- The determinant of a linear map of the plane or of space. -/
def det [Add α] [Sub α] [Mul α] : Dim → Mat3 α → α
  | two, a => a.minorDet
  | three, a => a.det

end Dim

end ImmersedBody
