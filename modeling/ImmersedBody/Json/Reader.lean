import ImmersedBody.Json.Symbol

/-!
# Reading JSON

A `Reader` takes a value off the front of a list of symbols.  It reads strictly: there are no
comments, no trailing commas, no leading zeros, and nothing but blanks, tabs and line ends around
values.

There are two ways to fail.  A text is *malformed* when no continuation could make it a value, and
reading is *interrupted* when the next symbol is needed and the source fails there.  So a source
that fails late is not blamed for a text that was wrong before.
-/

namespace ImmersedBody

/-- Why reading failed. -/
inductive ReadFault where
  | malformed
  /-- The source failed where more of the text was needed. -/
  | interrupted
deriving DecidableEq, Repr

/-- A function that takes a value off the front of a list of symbols. -/
abbrev Reader := StateT (List Symbol) (Except ReadFault)

/-- The number that stands in a text. -/
structure Numeral where
  negative : Bool
  /-- The digits before the exponent, without the decimal point. -/
  significand : Nat
  /-- The power of ten that scales the digits. -/
  scale : Int
  /-- Whether the number has neither a decimal point nor an exponent. -/
  integral : Bool
deriving DecidableEq, Repr

namespace Numeral

/-- The nearest double precision number, if the number does not round to infinity. -/
def toFloat? (n : Numeral) : Option Float :=
  let length : Int := (Nat.toDigits 10 n.significand).length
  let sign (x : Float) := if n.negative then -x else x
  if n.significand = 0 || length + n.scale < -400 then some (sign 0)
  else if 400 < length + n.scale then none
  else
    let magnitude :=
      if n.scale < 0 then Float.ofScientific n.significand true n.scale.natAbs
      else Float.ofScientific n.significand false n.scale.natAbs
    if magnitude.isInf then none else some (sign magnitude)

/-- The unsigned integer below a bound that the numeral writes. -/
def toNat? (bound : Nat) (n : Numeral) : Option Nat :=
  if n.integral && !n.negative && n.significand < bound then some n.significand else none

end Numeral

namespace Reader

variable {β : Type}

/-- The fault at the front of what is left. -/
def faultAt : List Symbol → ReadFault
  | .cut :: _ => .interrupted
  | _ => .malformed

/-- Fails at the front of what is left. -/
def fail : Reader β := fun s => .error (faultAt s)

/-- Fails whatever follows. -/
def refuse : Reader β := fun _ => .error .malformed

/-- The value, or a malformed text if there is none. -/
def given : Option β → Reader β
  | some value => pure value
  | none => refuse

/-- Whether a symbol may stand around values. -/
def isSpace : Symbol → Bool
  | .char c => c = ' ' || c = '\t' || c = '\n' || c = '\r'
  | _ => false

/-- Drops the space at the front. -/
def skipSpace : Reader Unit := fun s => .ok ((), s.dropWhile isSpace)

/-- The character at the front, if there is one, without taking it. -/
def peek : Reader (Option Char) := fun s =>
  match s with
  | .char c :: _ => .ok (some c, s)
  | _ => .ok (none, s)

/-- Takes the given characters off the front. -/
def word : List Char → Reader Unit
  | [] => pure ()
  | c :: rest => fun s =>
    match s with
    | .char d :: s' => if d = c then word rest s' else .error .malformed
    | _ => .error (faultAt s)

/-- Takes a character off the front, after space. -/
def mark (c : Char) : Reader Unit := do
  skipSpace
  word [c]

/-! ## Texts -/

/-- The value of a hexadecimal digit. -/
def hexDigit? : Symbol → Option Nat
  | .char c =>
    if '0' ≤ c && c ≤ '9' then some (c.toNat - '0'.toNat)
    else if 'a' ≤ c && c ≤ 'f' then some (c.toNat - 'a'.toNat + 10)
    else if 'A' ≤ c && c ≤ 'F' then some (c.toNat - 'A'.toNat + 10)
    else none
  | _ => none

/--
The fault in an escape behind whose letter these are the last symbols.  The code of an escape takes
four bytes, and it is looked at when they are there.
-/
def shortCode (s : List Symbol) : ReadFault :=
  if s.contains .cut && s.foldr (fun symbol bytes => symbol.width + bytes) 0 < 4 then .interrupted
  else .malformed

/-- The number that four hexadecimal digits write, or the fault in them. -/
def hexCode (a b c d : Symbol) : Except ReadFault Nat :=
  if d = .cut then .error (shortCode [a, b, c, d])
  else match hexDigit? a, hexDigit? b, hexDigit? c, hexDigit? d with
    | some a, some b, some c, some d => .ok (((a * 16 + b) * 16 + c) * 16 + d)
    | _, _, _, _ => .error .malformed

/-- The character that a letter behind a backslash stands for. -/
def escape? : Char → Option Char
  | '"' => some '"'
  | '\\' => some '\\'
  | '/' => some '/'
  | 'b' => some '\x08'
  | 't' => some '\t'
  | 'n' => some '\n'
  | 'f' => some '\x0c'
  | 'r' => some '\r'
  | _ => none

/-- Whether a code is the first half of a character outside the basic plane. -/
def isHighHalf (code : Nat) : Bool := 0xD800 ≤ code && code < 0xDC00

/-- Whether a code is the second half of a character outside the basic plane. -/
def isLowHalf (code : Nat) : Bool := 0xDC00 ≤ code && code < 0xE000

/--
The characters up to the closing quote.  After the first half of a character outside the basic
plane only the escape of its second half may follow.
-/
def textBody : Option Nat → List Symbol → Except ReadFault (List Char × List Symbol)
  | _, [] => .error .malformed
  | _, .cut :: _ => .error .interrupted
  | _, .stray :: _ => .error .malformed
  | high, .char c :: s =>
    if c = '\\' then
      match s with
      | .char 'u' :: a :: b :: c :: d :: rest =>
        match hexCode a b c d, high with
        | .error fault, _ => .error fault
        | .ok code, some first =>
          if isLowHalf code then
            (textBody none rest).map fun (characters, rest) =>
              (Char.ofNat (0x10000 + (first - 0xD800) * 0x400 + (code - 0xDC00)) :: characters,
                rest)
          else .error .malformed
        | .ok code, none =>
          if isHighHalf code then textBody (some code) rest
          else if isLowHalf code then .error .malformed
          else (textBody none rest).map fun (characters, rest) =>
            (Char.ofNat code :: characters, rest)
      | .char 'u' :: few => .error (shortCode few)
      | .char letter :: rest =>
        match escape? letter, high with
        | some character, none =>
          (textBody none rest).map fun (characters, rest) => (character :: characters, rest)
        | _, _ => .error .malformed
      | other => .error (faultAt other)
    else if high.isSome then .error .malformed
    else if c = '"' then .ok ([], s)
    else if c.toNat < 32 then .error .malformed
    else (textBody none s).map fun (characters, rest) => (c :: characters, rest)

/-- A text behind its opening quote. -/
def openText : Reader String := fun s =>
  (textBody none s).map fun (characters, rest) => (String.ofList characters, rest)

/--
Passes over a text behind its opening quote.  Only the form of its escapes matters, not what they
or its bytes stand for.
-/
def skipText : List Symbol → Except ReadFault (Unit × List Symbol)
  | [] => .error .malformed
  | .cut :: _ => .error .interrupted
  | .stray :: s => skipText s
  | .char c :: s =>
    if c = '\\' then
      match s with
      | .char 'u' :: a :: b :: c :: d :: rest =>
        match hexCode a b c d with
        | .error fault => .error fault
        | .ok _ => skipText rest
      | .char 'u' :: few => .error (shortCode few)
      | .char letter :: rest => if (escape? letter).isSome then skipText rest else .error .malformed
      | other => .error (faultAt other)
    else if c = '"' then .ok ((), s)
    else if c.toNat < 32 then .error .malformed
    else skipText s

/-! ## Numbers -/

/-- The value of a decimal digit. -/
def digit? : Symbol → Option Nat
  | .char c => if '0' ≤ c && c ≤ '9' then some (c.toNat - '0'.toNat) else none
  | _ => none

/-- The digits at the front, and what follows them. -/
def digits : List Symbol → List Nat × List Symbol
  | [] => ([], [])
  | c :: s =>
    match digit? c with
    | some d => let (ds, rest) := digits s; (d :: ds, rest)
    | none => ([], c :: s)

/-- The number that digits write. -/
def valueOf (ds : List Nat) : Nat :=
  ds.foldl (fun n d => 10 * n + d) 0

/-- The greatest exponent that is told apart from infinity. -/
def exponentLimit : Nat := 2147483647

/-- The integer part of a number: a zero alone, or digits that start with another one. -/
def wholePart (s : List Symbol) : Except ReadFault (List Nat × List Symbol) :=
  match digits s with
  | ([], rest) => .error (faultAt rest)
  | (0 :: _ :: _, _) => .error .malformed
  | found => .ok found

/-- The decimals of a number, with whether it has a decimal point. -/
def fractionPart : List Symbol → Except ReadFault ((Bool × List Nat) × List Symbol)
  | .char '.' :: s =>
    match digits s with
    | ([], rest) => .error (faultAt rest)
    | (ds, rest) => .ok ((true, ds), rest)
  | s => .ok ((false, []), s)

/--
The exponent of a number, if it has one.  With a limit, a positive exponent beyond it is refused at
once, before it is known where its digits end.
-/
def exponentPart (limited : Bool) (s : List Symbol) :
    Except ReadFault (Option Int × List Symbol) :=
  let signed (s : List Symbol) : Except ReadFault (Option Int × List Symbol) :=
    let (negative, s) := match s with
      | .char '-' :: rest => (true, rest)
      | .char '+' :: rest => (false, rest)
      | _ => (false, s)
    match digits s with
    | ([], rest) => .error (faultAt rest)
    | (ds, rest) =>
      let size := valueOf ds
      if limited && !negative && exponentLimit < size then .error .malformed
      else .ok (some (if negative then -(size : Int) else size), rest)
  match s with
  | .char 'e' :: rest => signed rest
  | .char 'E' :: rest => signed rest
  | _ => .ok (none, s)

/--
A number.  Where it ends is known only from the symbol behind it.  Unless it is only passed over,
a number other than zero must not have an exponent beyond the limit.
-/
def numeral (passedOver : Bool) : Reader Numeral := fun s => do
  let (negative, s) := match s with
    | .char '-' :: rest => (true, rest)
    | _ => (false, s)
  let (whole, s) ← wholePart s
  let ((pointed, decimals), s) ← fractionPart s
  let significand := valueOf (whole ++ decimals)
  let (exponent, s) ← exponentPart (!passedOver && significand != 0) s
  if faultAt s = .interrupted then .error .interrupted
  else
    .ok (⟨negative, significand, exponent.getD 0 - (decimals.length : Int),
      !pointed && exponent.isNone⟩, s)

/-! ## Values -/

/-- Whether a number starts with this character. -/
def startsNumber (c : Char) : Bool :=
  c = '-' || ('0' ≤ c && c ≤ '9')

/--
The fault of a value that is not of the expected kind.  Texts, numbers and words are read to their
end first; a bracket or anything else is refused at once.
-/
def otherKind : Reader β := do
  match ← peek with
  | some '"' => do word ['"']; let _ ← openText; refuse
  | some 'n' => do word ['n', 'u', 'l', 'l']; refuse
  | some 't' => do word ['t', 'r', 'u', 'e']; refuse
  | some 'f' => do word ['f', 'a', 'l', 's', 'e']; refuse
  | some c => if startsNumber c then do let _ ← numeral false; refuse else refuse
  | none => fail

/-- A value that is a text. -/
def string : Reader String := do
  skipSpace
  match ← peek with
  | some '"' => do word ['"']; openText
  | _ => otherKind

/-- A value that is a number. -/
def anyNumber : Reader Numeral := do
  skipSpace
  match ← peek with
  | some c => if startsNumber c then numeral false else otherKind
  | none => fail

/-- A value that is a number which does not round to infinity. -/
def float : Reader Float := do
  given (← anyNumber).toFloat?

/-- A value that is an unsigned integer below a bound. -/
def natural (bound : Nat) : Reader Nat := do
  given ((← anyNumber).toNat? bound)

/-- A value that is null. -/
def null : Reader Unit := do
  skipSpace
  match ← peek with
  | some 'n' => word ['n', 'u', 'l', 'l']
  | _ => otherKind

/--
Whether another item follows inside a list, which then starts at the front.  Items after the first
stand behind a comma.
-/
def more (first : Bool) : Reader Bool := do
  skipSpace
  match ← peek with
  | some ']' => pure false
  | some ',' =>
    if first then refuse
    else do
      word [',']
      skipSpace
      match ← peek with
      | some ']' => refuse
      | some _ => pure true
      | none => fail
  | some _ => if first then pure true else refuse
  | none => fail

/-- The items of a list behind its opening bracket; the budget bounds their number. -/
def items (item : Reader β) (first : Bool) : Nat → Reader (List β)
  | 0 => refuse
  | budget + 1 => do
    if ← more first then
      let value ← item
      let values ← items item false budget
      pure (value :: values)
    else
      pure []

/-- The opening bracket of a list. -/
def openList : Reader Unit := do
  skipSpace
  match ← peek with
  | some '[' => word ['[']
  | _ => otherKind

/-- A list of any length. -/
def list (item : Reader β) : Reader (List β) := do
  openList
  let budget := (← get).length
  let values ← items item true budget
  mark ']'
  pure values

/-- Exactly so many items of a list, in order. -/
def exactly (item : Reader β) : Bool → Nat → Reader (List β)
  | _, 0 => pure []
  | first, count + 1 => do
    if ← more first then
      let value ← item
      let values ← exactly item false count
      pure (value :: values)
    else
      refuse

/-- A list of a fixed length. -/
def array (count : Nat) (item : Reader β) : Reader (List β) := do
  openList
  let values ← exactly item true count
  mark ']'
  pure values

/-- A name out of a list, as a text or as a record with the name as its one key and a null value. -/
def choice (names : List (String × β)) : Reader β := do
  let named (name : String) : Reader β := given (names.lookup name)
  skipSpace
  match ← peek with
  | some '"' => do word ['"']; named (← openText)
  | some '{' => do
    word ['{']
    let value ← named (← string)
    mark ':'
    null
    mark '}'
    pure value
  | some _ => refuse
  | none => fail

/-- The value that a whole text consists of. -/
def whole (value : Reader β) (s : List Symbol) : Except ReadFault β :=
  match (do let x ← value; skipSpace; pure x : Reader β) s with
  | .ok (x, []) => .ok x
  | .ok (_, rest) => .error (faultAt rest)
  | .error fault => .error fault

end Reader

end ImmersedBody
