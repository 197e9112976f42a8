import Mathlib.Data.Rat.Sqrt
import ImmersedBody.Scalar

/-!
# Rational scalars

Runs over rational numbers can be evaluated in proofs.  Square roots are exact
for squares; sine and cosine are the leading terms of their series, which is
exact at the angle zero.
-/

namespace ImmersedBody

instance : Scalar ℚ where
  zero := Rat.ofInt 0
  one := Rat.ofInt 1
  add := Rat.add
  sub := Rat.sub
  mul := Rat.mul
  div := Rat.div
  neg := Rat.neg
  natCast n := Rat.ofInt n
  le a b := !Rat.blt b a
  lt := Rat.blt
  abs a := if a.num < 0 then Rat.neg a else a
  sqrt := Rat.sqrt
  sin a := a
  cos a := Rat.sub (Rat.ofInt 1) (Rat.div (Rat.mul a a) (Rat.ofInt 2))
  pi := Rat.div (Rat.ofInt 22) (Rat.ofInt 7)

end ImmersedBody
