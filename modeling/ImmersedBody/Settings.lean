import ImmersedBody.Json.Record
import ImmersedBody.Json.Text
import ImmersedBody.Limits
import ImmersedBody.Scalar

/-!
# Settings of a method

The settings are the name of the method, the polynomial degree that the quadrature rules integrate
exactly, and the tolerance for times.  All but the name have defaults.
-/

namespace ImmersedBody

/-- The settings of a method. -/
structure Settings (α : Type) where
  /-- The name of the method in messages and restart records. -/
  objectName : String
  /-- The polynomial degree that is integrated exactly over an element. -/
  quadratureOrder : Nat
  /-- The relative tolerance for times. -/
  timeTolerance : α
deriving DecidableEq

/-- Why the value of a setting is refused. -/
inductive SettingFault (α : Type) where
  | empty
  | orderAbove (order maximum : Nat)
  | notPositive (value : α)
  | stated (reason : String)
deriving DecidableEq

/-- Why settings are refused. -/
inductive SettingsError (α : Type) where
  | unreadable (details : String)
  | invalidValue (key : String) (fault : SettingFault α)
deriving DecidableEq

/-- The reason why a value is refused. -/
def SettingFault.message : SettingFault Float → String
  | empty => "must not be empty"
  | orderAbove order maximum => s!"order {order} exceeds the maximum supported order {maximum}"
  | notPositive value => "must be positive, got " ++ messageText value
  | stated reason => reason

/-- The name of a settings error, by which callers tell errors apart. -/
def SettingsError.name {α : Type} : SettingsError α → String
  | unreadable _ => "Parse"
  | invalidValue _ _ => "InvalidValue"

/-- The message of a settings error. -/
def SettingsError.message : SettingsError Float → String
  | unreadable details => "Failed to parse input database: " ++ details
  | invalidValue key fault => "Invalid value for key `" ++ key ++ "`: " ++ fault.message

namespace Settings

/-- The quadrature order of settings that do not name one. -/
def defaultOrder : Nat := 5

/-- The highest quadrature order. -/
def maximumOrder : Nat := 30

section

variable {α : Type} [Scalar α]

/-- The tolerance for times of settings that do not name one. -/
def defaultTolerance : α := 1 / ((1000000000000 : Nat) : α)

/-- The default settings of a method with a name. -/
def named (objectName : String) : Settings α :=
  ⟨objectName, defaultOrder, defaultTolerance⟩

/-- Refuses settings without a name, with too high an order or without a positive tolerance. -/
def check (settings : Settings α) : Except (SettingsError α) Unit :=
  if settings.objectName.isEmpty then
    .error (.invalidValue "object_name" .empty)
  else if maximumOrder < settings.quadratureOrder then
    .error (.invalidValue "quadrature_order" (.orderAbove settings.quadratureOrder maximumOrder))
  else if !Scalar.lt 0 settings.timeTolerance then
    .error (.invalidValue "time_epsilon" (.notPositive settings.timeTolerance))
  else
    .ok ()

end

/-- Settings as a JSON value. -/
def text (settings : Settings Float) : JsonText :=
  .record [("object_name", .string settings.objectName),
    ("quadrature_order", .natural settings.quadratureOrder),
    ("time_epsilon", .number settings.timeTolerance)]

/-- The settings that have been found. -/
structure Found where
  /-- The name of the method. -/
  objectName : Option String
  /-- The quadrature order. -/
  quadratureOrder : Option Nat
  /-- The tolerance for times. -/
  timeTolerance : Option Float

/-- The layout of a record of settings, which must not have other members. -/
def recordKind : RecordKind Found (Settings Float) where
  fields :=
    [{ name := "object_name"
       isSet := fun found => found.objectName.isSome
       read := fun found => do pure { found with objectName := some (← Reader.string) } },
     { name := "quadrature_order"
       isSet := fun found => found.quadratureOrder.isSome
       read := fun found => do
        pure { found with quadratureOrder := some (← Reader.natural wordCount) } },
     { name := "time_epsilon"
       isSet := fun found => found.timeTolerance.isSome
       read := fun found => do pure { found with timeTolerance := some (← Reader.float) } }]
  start := ⟨none, none, none⟩
  finish := fun found => return ⟨← found.objectName, found.quadratureOrder.getD defaultOrder,
    found.timeTolerance.getD defaultTolerance⟩
  closed := true

/-- Reads settings of any values. -/
def reader : Reader (Settings Float) :=
  Reader.record recordKind

/-- Reads settings from a text and checks them. -/
def read (source : String) : Except (SettingsError Float) (Settings Float) :=
  match reader.whole (Symbol.ofString source) with
  | .ok settings =>
    match settings.check with
    | .ok () => .ok settings
    | .error e => .error e
  | .error _ => .error (.unreadable "the text is not a record of settings")

end Settings

end ImmersedBody
