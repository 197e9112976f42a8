import ImmersedBody.Element.Shape
import ImmersedBody.Failure

/-!
# The map of an element

An element with nodes `x_i` is the image of its reference domain under `ξ ↦ ∑ x_i φ_i(ξ)`.  The
same sum interpolates any field that is given at the nodes.
-/

namespace ImmersedBody

/-- The positions of the nodes of an element, or the values of a field there. -/
abbrev Element (shape : Shape) (α : Type) := Vector (Vec3 α) shape.nodeCount

section

variable {α : Type} [Scalar α] {n : Nat}

/-- The sum of nodal values times weights, from the first node to the last. -/
def interpolate (weights : Vector α n) (nodes : Vector (Vec3 α) n) : Vec3 α :=
  (weights.zip nodes).foldl (fun sum (weight, node) => sum + node.scale weight) 0

/-- The sum of `x_i g_iᵀ` for nodal values `x_i` and gradients `g_i`. -/
def jacobian (gradients nodes : Vector (Vec3 α) n) : Mat3 α :=
  (gradients.zip nodes).foldl (fun sum (gradient, node) => sum + Mat3.outer node gradient) 0

/-- Two lists of one length as vectors. -/
def pairUp {β γ : Type} (first : List β) (second : List γ) :
    Except Fault ((n : Nat) × Vector β n × Vector γ n) :=
  if h : first.length = second.length then
    .ok ⟨second.length, ⟨first.toArray, by simp [h]⟩, ⟨second.toArray, by simp⟩⟩
  else .error .wrongLength

/-- The interpolation of lists, which have to have one length. -/
def interpolateLists (weights : List α) (nodes : List (Vec3 α)) : Except Fault (Vec3 α) :=
  (pairUp weights nodes).map fun ⟨_, weights, nodes⟩ => interpolate weights nodes

/-- The Jacobian of lists, which have to have one length. -/
def jacobianLists (gradients nodes : List (Vec3 α)) : Except Fault (Mat3 α) :=
  (pairUp gradients nodes).map fun ⟨_, gradients, nodes⟩ => jacobian gradients nodes

end

namespace Shape

variable {α : Type} [Scalar α] (shape : Shape)

/-- The values of the basis functions for a buffer of a given length. -/
def basisFor (length : Nat) (ξ : Vec3 α) : Except Fault (List α) :=
  if length = shape.nodeCount then .ok (shape.basis ξ).toList else .error .wrongLength

/-- The gradients of the basis functions for a buffer of a given length. -/
def gradientsFor (length : Nat) (ξ : Vec3 α) : Except Fault (List (Vec3 α)) :=
  if length = shape.nodeCount then .ok (shape.gradients ξ).toList else .error .wrongLength

end Shape

namespace Element

variable {α : Type} {shape : Shape}

/-- The element with the given nodes, if their number is right. -/
def ofList? (shape : Shape) (nodes : List (Vec3 α)) : Option (Element shape α) :=
  if h : nodes.length = shape.nodeCount then some ⟨nodes.toArray, by simp [h]⟩ else none

variable [Scalar α]

/-- The physical position of a reference point. -/
def position (element : Element shape α) (ξ : Vec3 α) : Vec3 α :=
  interpolate (shape.basis ξ) element

/-- The derivative of the position with respect to the reference point. -/
def derivative (element : Element shape α) (ξ : Vec3 α) : Mat3 α :=
  jacobian (shape.gradients ξ) element

/-- The factor by which the map scales the volume at a reference point, with its orientation. -/
def volumeFactor (element : Element shape α) (ξ : Vec3 α) : α :=
  shape.dim.det (element.derivative ξ)

end Element

end ImmersedBody
