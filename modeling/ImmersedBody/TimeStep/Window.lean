import ImmersedBody.Decimal.Style
import ImmersedBody.Scalar

/-!
# The window of a time step

A step leads from a current to a new time and has a half time between them.  A time given by a
caller is matched against these levels with a relative tolerance.
-/

namespace ImmersedBody

/-- The three times of a step. -/
inductive TimeLevel where
  | current
  | half
  | new
deriving DecidableEq, Repr

namespace TimeLevel

/-- The name of a level. -/
def name : TimeLevel → String
  | current => "Current"
  | half => "Half"
  | new => "New"

/-- All levels by name. -/
def byName : List (String × TimeLevel) :=
  [current, half, new].map fun level => (level.name, level)

end TimeLevel

/-- The values of a quantity at the three times of a step. -/
structure TimeLevels (τ : Type) where
  current : τ
  half : τ
  new : τ
deriving DecidableEq

namespace TimeLevels

variable {τ : Type}

/-- The same value at all three times. -/
def uniform (value : τ) : TimeLevels τ := ⟨value, value, value⟩

/-- The value at a level. -/
def get (levels : TimeLevels τ) : TimeLevel → τ
  | .current => levels.current
  | .half => levels.half
  | .new => levels.new

end TimeLevels

/-- The times of a step. -/
abbrev StepWindow (α : Type) := TimeLevels α

namespace StepWindow

variable {α : Type} [Scalar α]

/-- The window from a current to a new time, with the half time in the middle. -/
def between (current new : α) : StepWindow α where
  current := current
  half := Scalar.half * (current + new)
  new := new

/-- The length of the step; it is negative for a step backwards in time. -/
def length (window : StepWindow α) : α :=
  window.new - window.current

/--
Whether two times are equal up to a tolerance, which is relative to the larger of them, and to one
for small times.
-/
def timesEqual (tolerance a b : α) : Bool :=
  Scalar.le (Scalar.abs (a - b))
    (tolerance * Scalar.max 1 (Scalar.max (Scalar.abs a) (Scalar.abs b)))

/-- The first of the given levels whose time equals the given one. -/
def match? (window : StepWindow α) (tolerance time : α) (levels : List TimeLevel) :
    Option TimeLevel :=
  levels.find? fun level => timesEqual tolerance time (window.get level)

/-- The text of a window in messages. -/
def message (window : StepWindow Float) : String :=
  "[current = " ++ messageText window.current ++ ", half = " ++ messageText window.half
    ++ ", new = " ++ messageText window.new ++ "]"

end StepWindow

end ImmersedBody
