import ImmersedBody.Json.Record

/-!
# JSON values

A `JsonValue` is a JSON text whose structure is not known beforehand.  The members of a record keep
their order, and a name may come twice; looking a name up finds the first.
-/

namespace ImmersedBody

/-- A JSON value. -/
inductive JsonValue where
  | null
  | bool (b : Bool)
  | number (n : Numeral)
  | string (s : String)
  | list (items : List JsonValue)
  | record (members : List (String × JsonValue))

namespace Reader

variable {β : Type}

/-- The members of a record behind its opening bracket; the budget bounds their number. -/
def namedValues (value : Reader β) (first : Bool) : Nat → Reader (List (String × β))
  | 0 => refuse
  | budget + 1 => do
    match ← nextKey first with
    | some name => do
      mark ':'
      let x ← value
      let others ← namedValues value false budget
      pure ((name, x) :: others)
    | none => do
      word ['}']
      pure []

/-- A value with at most so many brackets around one another. -/
def nestedValue : Nat → Reader JsonValue
  | 0 => refuse
  | depth + 1 => do
    skipSpace
    match ← peek with
    | some '"' => JsonValue.string <$> string
    | some 'n' => do
      word ['n', 'u', 'l', 'l']
      pure .null
    | some 't' => do
      word ['t', 'r', 'u', 'e']
      pure (.bool true)
    | some 'f' => do
      word ['f', 'a', 'l', 's', 'e']
      pure (.bool false)
    | some '[' => JsonValue.list <$> list (nestedValue depth)
    | some '{' => do
      word ['{']
      let budget := (← get).length + 1
      JsonValue.record <$> namedValues (nestedValue depth) true budget
    | some c => if startsNumber c then JsonValue.number <$> numeral false else refuse
    | none => fail

/-- A value of any kind. -/
def anyValue : Reader JsonValue := do
  nestedValue ((← get).length + 1)

end Reader

namespace JsonValue

/-- The value that a text consists of. -/
def ofString? (text : String) : Option JsonValue :=
  match Reader.anyValue.whole (Symbol.ofString text) with
  | .ok value => some value
  | .error _ => none

/-- A member of a record; a missing one is null. -/
def get : JsonValue → String → JsonValue
  | record members, name => (members.lookup name).getD null
  | _, _ => null

/-- The items of a list; any other value has none. -/
def items : JsonValue → List JsonValue
  | list values => values
  | _ => []

/-- An item of a list; a missing one is null. -/
def item (value : JsonValue) (i : Nat) : JsonValue :=
  value.items.getD i null

/-- Whether a value is null. -/
def isNull : JsonValue → Bool
  | null => true
  | _ => false

end JsonValue

end ImmersedBody
