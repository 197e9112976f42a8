/-!
# Scalars

The geometry, the kinematics and the force integration of this library are written once, for every
type of scalars.  A program runs them on double precision numbers; a statement about exact motion
reads the same definitions over the real numbers.

A `Scalar` type has field operations, square roots, trigonometric functions and a decidable order.
No laws are demanded: double precision numbers satisfy almost none of them.
-/

namespace ImmersedBody

/-- The operations that the numerical definitions of this library need of their numbers. -/
class Scalar (α : Type) extends Zero α, One α, Add α, Sub α, Mul α, Div α, Neg α, NatCast α where
  le : α → α → Bool
  lt : α → α → Bool
  abs : α → α
  sqrt : α → α
  /-- The sine of an angle in radians. -/
  sin : α → α
  cos : α → α
  /-- Half the circumference of the unit circle. -/
  pi : α

namespace Scalar

variable {α : Type} [Scalar α]

/-- The larger of two numbers; one that is not comparable with itself gives way to the other. -/
def max (a b : α) : α :=
  if le a b then b else if le a a then a else b

/-- One half. -/
def half : α := 1 / ((2 : Nat) : α)

/-- One quarter. -/
def quarter : α := 1 / ((4 : Nat) : α)

/-- One eighth. -/
def eighth : α := 1 / ((8 : Nat) : α)

/-- The distance between one and the next larger double precision number. -/
def epsilon : α := 1 / ((4503599627370496 : Nat) : α)

end Scalar

/-- Double precision numbers; every operation is the correctly rounded or the platform's one. -/
instance : Scalar Float where
  zero := 0
  one := 1
  natCast := Float.ofNat
  le := fun a b => decide (a ≤ b)
  lt := fun a b => decide (a < b)
  abs := Float.abs
  sqrt := Float.sqrt
  sin := Float.sin
  cos := Float.cos
  pi := 3.141592653589793

end ImmersedBody
