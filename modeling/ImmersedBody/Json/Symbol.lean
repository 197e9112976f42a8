/-!
# Symbols of a text that is read

A reader sees a list of symbols.  Most are characters.  A byte that belongs to no character in
UTF-8 is a stray, and a source that fails before it ends leaves a cut behind what it delivered.
-/

namespace ImmersedBody

/-- One position of a text that is read. -/
inductive Symbol where
  | char (c : Char)
  /-- A byte that belongs to no character. -/
  | stray
  /-- The place where the source failed; nothing stands behind it. -/
  | cut
deriving DecidableEq, Repr

namespace Symbol

/-- The number of bytes that a symbol stands for. -/
def width : Symbol → Nat
  | char c => c.utf8Size
  | stray => 1
  | cut => 0

/-- The symbols of a text. -/
def ofString (s : String) : List Symbol :=
  s.toList.map char

/-- The symbols of bytes from a position on. -/
def ofBytesFrom (bytes : ByteArray) (position : Nat) : List Symbol :=
  if position < bytes.size then
    match bytes.utf8DecodeChar? position with
    | some c => char c :: ofBytesFrom bytes (position + c.utf8Size)
    | none => stray :: ofBytesFrom bytes (position + 1)
  else []
termination_by bytes.size - position
decreasing_by
  · have := c.utf8Size_pos
    omega
  · omega

/-- The symbols of bytes in UTF-8. -/
def ofBytes (bytes : ByteArray) : List Symbol :=
  ofBytesFrom bytes 0

/-- The symbols of a text whose source fails where the text ends. -/
def cutAfter (s : String) : List Symbol :=
  ofString s ++ [cut]

end Symbol

end ImmersedBody
