import ImmersedBody.Decimal.Binary64

/-!
# The fewest digits that read back

A decimal *reads back* as a double precision number if it lies in the interval of values that round
to that number.  The bounds of the interval belong to it exactly when the significand is even.

`Magnitude.shortest` looks at the decimal grids with one digit, two digits and so on, up to
seventeen.  On each grid it tests the two neighbours of the value, and it stops at the first grid
where one of them reads back.  Of two neighbours that read back it takes the nearer one; a record
that writes numbers decides what happens to a tie.
-/

namespace ImmersedBody

/-- The choice between two decimals that are equally near to a value. -/
inductive Ties where
  /-- The larger magnitude. -/
  | away
  /-- The one whose last digit is even. -/
  | even
deriving DecidableEq, Repr

/-- The decimal `significand * 10 ^ exponent`. -/
structure Decimal where
  /-- The digits, as an integer. -/
  significand : Nat
  /-- The power of ten of the last digit. -/
  exponent : Int
deriving DecidableEq, Repr

namespace Decimal

/-- The number of decimal digits of a positive number. -/
def digitCount (n : Nat) : Nat :=
  (Nat.toDigits 10 n).length

/-- The digits of the significand, from the first to the last. -/
def digits (d : Decimal) : List Char :=
  Nat.toDigits 10 d.significand

/-- The power of ten of the first digit. -/
def leading (d : Decimal) : Int :=
  d.exponent + (d.digits.length - 1 : Nat)

end Decimal

namespace Magnitude

/--
The quotient of `quarters * 2 ^ (exponent - 2)` and `10 ^ power`, as a numerator and a denominator.
-/
def quotient (m : Magnitude) (quarters : Nat) (power : Int) : Nat × Nat :=
  let binary := m.exponent - 2
  (quarters * Nat.pow 2 binary.toNat * Nat.pow 10 (-power).toNat,
    Nat.pow 2 (-binary).toNat * Nat.pow 10 power.toNat)

/-- The power of ten of the first decimal digit of a positive magnitude. -/
def leading (m : Magnitude) : Int :=
  let (numerator, denominator) := m.quotient (4 * m.significand) 0
  if denominator ≤ numerator then
    (Decimal.digitCount (numerator / denominator) - 1 : Nat)
  else
    -(Decimal.digitCount ((denominator - 1) / numerator) : Int)

/-- Whether `candidate * 10 ^ power` lies in the interval of values that round to the magnitude. -/
def readsBack (m : Magnitude) (power : Int) (candidate : Nat) : Bool :=
  let low := 4 * m.significand - (if m.narrowBelow then 1 else 2)
  let high := 4 * m.significand + 2
  let (lowest, denominator) := m.quotient low power
  let (highest, _) := m.quotient high power
  if m.significand % 2 = 0 then
    lowest ≤ candidate * denominator && candidate * denominator ≤ highest
  else
    lowest < candidate * denominator && candidate * denominator < highest

/-- The neighbour of the magnitude on the grid `10 ^ power` that reads back, if there is one. -/
def neighbour? (ties : Ties) (m : Magnitude) (power : Int) : Option Nat :=
  let (numerator, denominator) := m.quotient (4 * m.significand) power
  let below := numerator / denominator
  let above := below + 1
  match m.readsBack power below, m.readsBack power above with
  | true, true =>
    let twice := 2 * (numerator % denominator)
    if twice < denominator then some below
    else if denominator < twice then some above
    else match ties with
      | .away => some above
      | .even => some (if below % 2 = 0 then below else above)
  | true, false => some below
  | false, true => some above
  | false, false => none

/-- Of the decimals with the fewest digits that read back as the magnitude, the nearest. -/
def shortest (ties : Ties) (m : Magnitude) : Decimal :=
  if m.significand = 0 then ⟨0, 0⟩
  else
    let found := (List.range 17).findSome? fun (n : Nat) =>
      let power : Int := m.leading - (n : Int)
      (m.neighbour? ties power).map fun (c : Nat) =>
        if c = Nat.pow 10 (n + 1) then ⟨1, m.leading + 1⟩ else (⟨c, power⟩ : Decimal)
    found.getD ⟨0, 0⟩

end Magnitude

end ImmersedBody
