import ImmersedBody.Json.Reader

/-!
# Reading records

A record is read field by field into a state that collects what has been found.  It is written as
named members in any order, or as the list of its values in declaration order, from which trailing
fields with defaults may be missing.

A member that names no field is passed over or refused, as the record decides; a field that comes
twice is always refused.
-/

namespace ImmersedBody

/-- A field of a record whose values are collected in a state. -/
structure RecordField (σ : Type) where
  name : String
  isSet : σ → Bool
  read : σ → Reader σ

/-- A kind of record. -/
structure RecordKind (σ τ : Type) where
  /-- The fields in declaration order. -/
  fields : List (RecordField σ)
  start : σ
  /-- The record that a state amounts to, unless a field is missing. -/
  finish : σ → Option τ
  /-- Whether a member that names no field is refused. -/
  closed : Bool

namespace Reader

variable {σ τ : Type}

/-- An open bracket around a value that is passed over. -/
inductive Bracket where
  | list
  | record
deriving DecidableEq

/-- Takes the key of a member and the colon behind it, passing over both. -/
def skipKey : Reader Unit := do
  mark '"'
  skipText
  mark ':'

/--
Passes over one value.  The brackets around the current place are kept in a list, innermost first,
and the flag says whether a value has just ended.  The budget bounds the number of steps.
-/
def skipFrom : Nat → List Bracket → Bool → Reader Unit
  | 0, _, _ => refuse
  | _ + 1, [], true => pure ()
  | budget + 1, bracket :: outer, true => do
    skipSpace
    match ← peek, bracket with
    | some ',', .list => do word [',']; skipFrom budget (bracket :: outer) false
    | some ',', .record => do word [',']; skipKey; skipFrom budget (bracket :: outer) false
    | some ']', .list => do word [']']; skipFrom budget outer true
    | some '}', .record => do word ['}']; skipFrom budget outer true
    | some _, _ => refuse
    | none, _ => fail
  | budget + 1, brackets, false => do
    skipSpace
    match ← peek with
    | some '"' => do word ['"']; skipText; skipFrom budget brackets true
    | some 'n' => do word ['n', 'u', 'l', 'l']; skipFrom budget brackets true
    | some 't' => do word ['t', 'r', 'u', 'e']; skipFrom budget brackets true
    | some 'f' => do word ['f', 'a', 'l', 's', 'e']; skipFrom budget brackets true
    | some '[' => do
      word ['[']
      skipSpace
      match ← peek with
      | some ']' => do word [']']; skipFrom budget brackets true
      | _ => skipFrom budget (.list :: brackets) false
    | some '{' => do
      word ['{']
      skipSpace
      match ← peek with
      | some '}' => do word ['}']; skipFrom budget brackets true
      | _ => do skipKey; skipFrom budget (.record :: brackets) false
    | some c =>
      if startsNumber c then do let _ ← numeral true; skipFrom budget brackets true else refuse
    | none => fail

/-- Passes over one value. -/
def skipValue : Reader Unit := do
  skipFrom (2 * (← get).length + 2) [] false

/-- Reads the value of the field with the given name, behind its key. -/
def member (kind : RecordKind σ τ) (name : String) (state : σ) : Reader σ :=
  match kind.fields.find? (·.name == name) with
  | some field =>
    if field.isSet state then refuse
    else do
      mark ':'
      field.read state
  | none =>
    if kind.closed then refuse
    else do
      mark ':'
      skipValue
      pure state

/--
The key of the next member, or nothing at the closing bracket.  Members after the first stand
behind a comma.
-/
def nextKey (first : Bool) : Reader (Option String) := do
  skipSpace
  match ← peek with
  | some '}' => pure none
  | some ',' =>
    if first then refuse
    else do
      word [',']
      mark '"'
      some <$> openText
  | some '"' =>
    if first then do
      word ['"']
      some <$> openText
    else refuse
  | some _ => refuse
  | none => fail

/-- The members of a record behind its opening bracket; the budget bounds their number. -/
def members (kind : RecordKind σ τ) (first : Bool) : Nat → σ → Reader τ
  | 0, _ => refuse
  | budget + 1, state => do
    match ← nextKey first with
    | some name => members kind false budget (← member kind name state)
    | none => do
      let value ← given (kind.finish state)
      word ['}']
      pure value

/-- The values of a record in declaration order, behind its opening bracket. -/
def positions (kind : RecordKind σ τ) : Bool → List (RecordField σ) → σ → Reader τ
  | _, [], state => do
    let value ← given (kind.finish state)
    mark ']'
    pure value
  | first, field :: fields, state => do
    if ← more first then
      let state ← field.read state
      positions kind false fields state
    else do
      let value ← given (kind.finish state)
      word [']']
      pure value

/-- A record in either form. -/
def record (kind : RecordKind σ τ) : Reader τ := do
  skipSpace
  match ← peek with
  | some '{' => do
    word ['{']
    members kind true ((← get).length + 1) kind.start
  | some '[' => do
    word ['[']
    positions kind true kind.fields kind.start
  | _ => otherKind

end Reader

end ImmersedBody
