import ImmersedBody.Failure

/-!
# Gauss rules on an interval

The Gauss rule with `n` points on `[-1, 1]` integrates polynomials of degree `2 n - 1` exactly.
Its points are the zeros of the Legendre polynomial of degree `n`, found by Newton's iteration from
an asymptotic guess.  They are symmetric about the origin, so only one half is computed.
-/

namespace ImmersedBody

/-- A weight and a point on a line. -/
abbrev LinePoint (α : Type) := α × α

/-- A quadrature rule on an interval. -/
abbrev LineRule (α : Type) := List (LinePoint α)

namespace Legendre

variable {α : Type} [Scalar α]

/-- The values at a point of the Legendre polynomials of degrees `n` and `n + 1`. -/
def pair (x : α) : Nat → α × α
  | 0 => (1, x)
  | n + 1 =>
    let (before, value) := pair x n
    let k : α := ((n + 1 : Nat) : α)
    (value, ((((2 : Nat) : α) * k + 1) * x * value - k * before) / (k + 1))

/-- The values at a point of the Legendre polynomial of a degree and of its derivative. -/
def valueAndDerivative (degree : Nat) (x : α) : α × α :=
  match degree with
  | 0 => (1, 0)
  | n + 1 =>
    let (before, value) := pair x n
    (value, ((n + 1 : Nat) : α) * (x * value - before) / (x * x - 1))

/-- Newton's iteration for a zero, up to a number of steps or until a step is tiny. -/
def refineZero (degree : Nat) : Nat → α → α
  | 0, x => x
  | budget + 1, x =>
    let (value, derivative) := valueAndDerivative degree x
    let step := -value / derivative
    let next := x + step
    if Scalar.le (Scalar.abs step) (1 / ((1000000000000000 : Nat) : α)) then next
    else refineZero degree budget next

/-- The guess for a zero from which the iteration starts; the zeros are counted from the right. -/
def guessZero (degree index : Nat) : α :=
  Scalar.cos (Scalar.pi * ((index : α) + ((3 : Nat) : α) / ((4 : Nat) : α))
    / ((degree : α) + Scalar.half))

end Legendre

namespace LineRule

variable {α : Type} [Scalar α]

/-- The weight and the point of a Gauss rule that belong to a zero of the Legendre polynomial. -/
def gaussPoint (n index : Nat) : LinePoint α :=
  let x := Legendre.refineZero n 100 (Legendre.guessZero n index)
  let derivative := (Legendre.valueAndDerivative n x).2
  (((2 : Nat) : α) / ((1 - x * x) * derivative * derivative), x)

/-- The reflections of points about the origin, in the opposite order. -/
def reflected (points : LineRule α) : LineRule α :=
  points.reverse.map fun (weight, x) => (weight, -x)

/-- The Gauss rule with a number of points. -/
def gauss (n : Nat) : LineRule α :=
  let half : LineRule α := (List.range ((n + 1) / 2)).map (gaussPoint n)
  half ++ reflected (half.take (n / 2))

/-- The Gauss rule with a positive number of points, if they fit into memory. -/
def gauss? (n : Nat) : Except Fault (LineRule α) :=
  if n = 0 then .error .noPoints
  else do
    Fault.checkMemory n
    return gauss n

/-- The number of Gauss points that integrate polynomials of a degree exactly. -/
def pointsFor (degree : Nat) : Nat :=
  degree / 2 + 1

end LineRule

end ImmersedBody
