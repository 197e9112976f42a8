/-!
# Double precision numbers as exact values

`Binary64.ofFloat` reads the sign, the exponent and the fraction of a double precision number off
its bit pattern.  A finite number is an integer times a power of two, so that all decimal work on
it is arithmetic of natural numbers.
-/

namespace ImmersedBody

/-- The magnitude of a finite double precision number: `significand * 2 ^ exponent`. -/
structure Magnitude where
  significand : Nat
  /-- The power of two that scales it. -/
  exponent : Int
  /-- Whether the next smaller number is only half as far away as the next larger one. -/
  narrowBelow : Bool
deriving DecidableEq, Repr

/-- The value of a double precision number.  The payload of a NaN is not kept. -/
inductive Binary64 where
  | nan
  | infinite (negative : Bool)
  | finite (negative : Bool) (magnitude : Magnitude)
deriving DecidableEq, Repr

namespace Binary64

/-- The significand of a power of two: the bit in front of the 52 bits of the fraction. -/
def leadingBit : Nat := 0x10000000000000

/-- The value of the bit pattern that consists of a sign, eleven exponent and 52 fraction bits. -/
def ofBits (bits : Nat) : Binary64 :=
  let negative := bits / 0x8000000000000000 % 2 == 1
  let biased : Nat := bits / leadingBit % 2048
  let fraction : Nat := bits % leadingBit
  if biased = 2047 then
    if fraction = 0 then infinite negative else nan
  else if biased = 0 then
    finite negative ⟨fraction, -1074, false⟩
  else
    finite negative ⟨leadingBit + fraction, (biased : Int) - 1075, fraction == 0 && 1 < biased⟩

/-- The value of a double precision number. -/
def ofFloat (x : Float) : Binary64 :=
  ofBits x.toBits.toNat

end Binary64

end ImmersedBody
