import ImmersedBody.Scalar

/-!
# Vectors in space

Points, displacements, forces and velocities have three components.  A planar structure lies in
the plane `z = 0`, so that its rotations are rotations about the `z` axis.

All sums and products are written out per component, which fixes the order of evaluation.
-/

namespace ImmersedBody

/-- A vector with three components. -/
@[ext]
structure Vec3 (α : Type) where
  x : α
  y : α
  z : α
deriving DecidableEq, BEq

namespace Vec3

variable {α : Type}

instance [Zero α] : Zero (Vec3 α) := ⟨⟨0, 0, 0⟩⟩

instance [Add α] : Add (Vec3 α) := ⟨fun v w => ⟨v.x + w.x, v.y + w.y, v.z + w.z⟩⟩

instance [Sub α] : Sub (Vec3 α) := ⟨fun v w => ⟨v.x - w.x, v.y - w.y, v.z - w.z⟩⟩

/-- Every component multiplied by a factor, which stands on the right. -/
def scale [Mul α] (v : Vec3 α) (factor : α) : Vec3 α :=
  ⟨v.x * factor, v.y * factor, v.z * factor⟩

/-- Every component divided by a number. -/
def divide [Div α] (v : Vec3 α) (divisor : α) : Vec3 α :=
  ⟨v.x / divisor, v.y / divisor, v.z / divisor⟩

/-- The sum of the products of the components, from the first to the last. -/
def dot [Add α] [Mul α] (v w : Vec3 α) : α :=
  v.x * w.x + v.y * w.y + v.z * w.z

/-- The square of the length. -/
def normSq [Add α] [Mul α] (v : Vec3 α) : α :=
  v.dot v

/-- The length. -/
def norm [Scalar α] (v : Vec3 α) : α :=
  Scalar.sqrt v.normSq

/-- The vector orthogonal to both arguments, oriented by the right-hand rule. -/
def cross [Sub α] [Mul α] (v w : Vec3 α) : Vec3 α :=
  ⟨v.y * w.z - v.z * w.y, v.z * w.x - v.x * w.z, v.x * w.y - v.y * w.x⟩

/-- The mean of two vectors. -/
def average [Scalar α] (v w : Vec3 α) : Vec3 α :=
  (v + w).scale Scalar.half

/-- The components in order. -/
def toList (v : Vec3 α) : List α :=
  [v.x, v.y, v.z]

section

variable [Zero α]

@[simp] theorem zero_x : (0 : Vec3 α).x = 0 := rfl
@[simp] theorem zero_y : (0 : Vec3 α).y = 0 := rfl
@[simp] theorem zero_z : (0 : Vec3 α).z = 0 := rfl

end

section

variable [Add α] (v w : Vec3 α)

@[simp] theorem add_x : (v + w).x = v.x + w.x := rfl
@[simp] theorem add_y : (v + w).y = v.y + w.y := rfl
@[simp] theorem add_z : (v + w).z = v.z + w.z := rfl

end

section

variable [Sub α] (v w : Vec3 α)

@[simp] theorem sub_x : (v - w).x = v.x - w.x := rfl
@[simp] theorem sub_y : (v - w).y = v.y - w.y := rfl
@[simp] theorem sub_z : (v - w).z = v.z - w.z := rfl

end

section

variable [Mul α] (v : Vec3 α) (factor : α)

@[simp] theorem scale_x : (v.scale factor).x = v.x * factor := rfl
@[simp] theorem scale_y : (v.scale factor).y = v.y * factor := rfl
@[simp] theorem scale_z : (v.scale factor).z = v.z * factor := rfl

end

end Vec3

end ImmersedBody
