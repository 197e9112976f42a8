import ImmersedBody.Decimal.Style

/-!
# Writing JSON

A `JsonText` is a value on its way to a text: given a layout it yields characters.  The compact
layout puts everything on one line.  The indented layout starts a line per item, two spaces deeper
than the line of the bracket that holds it.

Numbers use `NumberStyle.json`, and a number that is not finite is `null`.
-/

namespace ImmersedBody

/-- The layout of a JSON text: compact, or indented at a depth. -/
abbrev JsonLayout := Option Nat

namespace JsonLayout

/-- What stands before an item, and before a closing bracket: nothing, or a new line. -/
def lineBreak : JsonLayout → List Char
  | none => []
  | some depth => '\n' :: List.replicate (2 * depth) ' '

/-- The layout of what is inside a bracket. -/
def inner (layout : JsonLayout) : JsonLayout :=
  layout.map (· + 1)

/-- What stands between a name and its value. -/
def colon : JsonLayout → List Char
  | none => [':']
  | some _ => [':', ' ']

end JsonLayout

/-- A JSON value as a function from the layout to the text. -/
abbrev JsonText := JsonLayout → List Char

namespace JsonText

/-- One character inside quotes.  Quotes, backslashes and control characters are escaped. -/
def escaped (c : Char) : List Char :=
  if c = '"' then ['\\', '"']
  else if c = '\\' then ['\\', '\\']
  else if c.toNat = 8 then ['\\', 'b']
  else if c.toNat = 9 then ['\\', 't']
  else if c.toNat = 10 then ['\\', 'n']
  else if c.toNat = 12 then ['\\', 'f']
  else if c.toNat = 13 then ['\\', 'r']
  else if c.toNat < 32 then
    ['\\', 'u', '0', '0', Nat.digitChar (c.toNat / 16), Nat.digitChar (c.toNat % 16)]
  else [c]

/-- The characters of a text between quotes. -/
def quoted (characters : List Char) : List Char :=
  '"' :: (characters.flatMap escaped ++ ['"'])

/-- The value without content. -/
def null : JsonText := fun _ => ['n', 'u', 'l', 'l']

/-- A truth value. -/
def bool (b : Bool) : JsonText := fun _ =>
  if b then ['t', 'r', 'u', 'e'] else ['f', 'a', 'l', 's', 'e']

/-- A text. -/
def string (s : String) : JsonText := fun _ => quoted s.toList

/-- An unsigned integer. -/
def natural (n : Nat) : JsonText := fun _ => Nat.toDigits 10 n

/-- A number; one that is not finite is null. -/
def number (x : Float) : JsonText := fun layout =>
  match Binary64.ofFloat x with
  | .finite .. => NumberStyle.json.text x
  | _ => null layout

/-- Items between brackets.  Brackets without an item between them stay together. -/
def enclosed (opening closing : Char) (items : List JsonText) : JsonText := fun layout =>
  match items with
  | [] => [opening, closing]
  | first :: others =>
    let item (value : JsonText) := layout.inner.lineBreak ++ value layout.inner
    opening :: (item first ++ others.flatMap (fun value => ',' :: item value)
      ++ layout.lineBreak ++ [closing])

/-- A list of values. -/
def list (items : List JsonText) : JsonText :=
  enclosed '[' ']' items

/-- A record of named values, in the given order. -/
def record (fields : List (String × JsonText)) : JsonText :=
  enclosed '{' '}' (fields.map fun (name, value) => fun layout =>
    quoted name.toList ++ layout.colon ++ value layout)

/-- The text on one line. -/
def compact (value : JsonText) : String :=
  String.ofList (value none)

/-- The text with a line per item. -/
def indented (value : JsonText) : String :=
  String.ofList (value (some 0))

end JsonText

end ImmersedBody
