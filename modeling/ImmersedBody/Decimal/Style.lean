import ImmersedBody.Decimal.Shortest

/-!
# Number styles

A `NumberStyle` says how the digits of a number are laid out.  This library writes numbers in three
places: messages, descriptions of values, and JSON texts.  Each has its record below.
-/

namespace ImmersedBody

/-- The decisions that turn the digits of a number into text. -/
structure NumberStyle where
  /-- Which of two equally near decimals is written. -/
  ties : Ties
  /-- Whether a number whose first digit has this power of ten is written without an exponent. -/
  positional : Int → Bool
  /-- Whether an integer without an exponent still shows one decimal. -/
  pointZero : Bool
  /-- Whether a positive exponent has a sign. -/
  plusSign : Bool

namespace NumberStyle

/-- Messages never use an exponent, and integers have no decimals. -/
def message : NumberStyle where
  ties := .away
  positional := fun _ => true
  pointZero := false
  plusSign := false

/-- Descriptions show at least one decimal, and an exponent below `1e-4` and from `1e16` on. -/
def description : NumberStyle where
  ties := .away
  positional := fun leading => -4 ≤ leading && leading < 16
  pointZero := true
  plusSign := false

/-- JSON texts show at least one decimal, and a signed exponent below `1e-5` and from `1e16` on. -/
def json : NumberStyle where
  ties := .even
  positional := fun leading => -5 ≤ leading && leading < 16
  pointZero := true
  plusSign := true

/-- Digits with a decimal point behind the first `whole` of them. -/
def positionalText (style : NumberStyle) (digits : List Char) (whole : Int) : List Char :=
  if whole ≤ 0 then
    '0' :: '.' :: (List.replicate (-whole).toNat '0' ++ digits)
  else if (digits.length : Int) ≤ whole then
    digits ++ List.replicate (whole.toNat - digits.length) '0'
      ++ (if style.pointZero then ['.', '0'] else [])
  else
    digits.take whole.toNat ++ '.' :: digits.drop whole.toNat

/-- Digits with a decimal point behind the first one and an exponent behind the last one. -/
def exponentText (style : NumberStyle) (digits : List Char) (leading : Int) : List Char :=
  let fraction := match digits with
    | first :: second :: rest => first :: '.' :: second :: rest
    | short => short
  let sign := if leading < 0 then ['-'] else if style.plusSign then ['+'] else []
  fraction ++ 'e' :: (sign ++ Nat.toDigits 10 leading.natAbs)

/-- The text of a decimal. -/
def decimalText (style : NumberStyle) (d : Decimal) : List Char :=
  if style.positional d.leading then
    style.positionalText d.digits (d.leading + 1)
  else
    style.exponentText d.digits d.leading

/-- The text of a number. -/
def text (style : NumberStyle) (x : Float) : List Char :=
  match Binary64.ofFloat x with
  | .nan => ['N', 'a', 'N']
  | .infinite negative => (if negative then ['-'] else []) ++ ['i', 'n', 'f']
  | .finite negative magnitude =>
    (if negative then ['-'] else []) ++ style.decimalText (magnitude.shortest style.ties)

end NumberStyle

/-- A number as it stands in a message. -/
def messageText (x : Float) : String :=
  String.ofList (NumberStyle.message.text x)

/-- A number as it stands in a description of a value. -/
def descriptionText (x : Float) : String :=
  String.ofList (NumberStyle.description.text x)

end ImmersedBody
