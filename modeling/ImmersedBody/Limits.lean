/-!
# Limits of the machine

Structures are numbered by words of 64 bits and kept in memory.  Numbers are natural numbers in
this library, without a bound, and the definitions of its theory do not mention the limits.  Where
a caller is free to name any number, there is a second form of a definition, which refuses an
operand that is beyond the limits.  Where it does not refuse, it is the first form.
-/

namespace ImmersedBody

/-- How many numbers a word can hold. -/
def wordCount : Nat := 0x10000000000000000

/-- How many bytes of memory can be in one piece. -/
def memoryBytes : Nat := 0x7FFFFFFFFFFFFFFF

/-- How many bytes a number takes. -/
def numberBytes : Nat := 8

/-- How many bytes it takes to wait for a rank of a cluster. -/
def rankBytes : Nat := 24

/-- How many bytes it takes to look a number up: two numbers, and a mark of the place they are at. -/
def placeBytes : Nat := 17

/-- Whether so many numbers fit into one piece of memory. -/
def fitsInMemory (numbers : Nat) : Bool :=
  numbers * numberBytes ≤ memoryBytes

/--
How many pieces there is room for where so many were put one after the other.  If there is no room
for the next one, the room is doubled.
-/
def roomFor (pieces : Nat) : Nat :=
  if pieces ≤ 1 then pieces else 1 <<< ((pieces - 1).log2 + 1)

/--
Whether so many numbers can be looked up in one piece of memory.  One place in eight stays free.
-/
def fitsInTable (numbers : Nat) : Bool :=
  roomFor ((8 * numbers + 6) / 7) * placeBytes ≤ memoryBytes

/-- The room stays as it is until it is full. -/
theorem roomFor_succ {pieces : Nat} (positive : 0 < pieces) :
    roomFor (pieces + 1) =
      if pieces < roomFor pieces then roomFor pieces else 2 * roomFor pieces := by
  have next : roomFor (pieces + 1) = 2 ^ (pieces.log2 + 1) := by
    rw [roomFor, if_neg (by omega), Nat.one_shiftLeft, Nat.add_sub_cancel]
  rcases Nat.eq_or_lt_of_le positive with rfl | many
  · rfl
  have room : roomFor pieces = 2 ^ ((pieces - 1).log2 + 1) := by
    rw [roomFor, if_neg (by omega), Nat.one_shiftLeft]
  have below : pieces - 1 < 2 ^ ((pieces - 1).log2 + 1) := Nat.lt_log2_self
  have above : 2 ^ (pieces - 1).log2 ≤ pieces - 1 := Nat.log2_self_le (by omega)
  rw [next, room]
  split
  next free =>
    have same : pieces.log2 = (pieces - 1).log2 := by
      rw [Nat.log2_eq_iff (by omega)]
      omega
    rw [same]
  next full =>
    have power : pieces = 2 ^ ((pieces - 1).log2 + 1) := by omega
    have doubled : pieces.log2 = (pieces - 1).log2 + 1 := by
      rw [Nat.log2_eq_iff (by omega), Nat.pow_succ 2 (_ + 1)]
      omega
    rw [doubled, Nat.pow_succ, Nat.mul_comm]

theorem roomFor_le_iff {pieces limit : Nat} (positive : 0 < limit) :
    roomFor pieces ≤ limit ↔ pieces ≤ 1 <<< limit.log2 := by
  have power : 2 ^ limit.log2 ≤ limit := Nat.log2_self_le (Nat.ne_of_gt positive)
  have unit : 1 ≤ 2 ^ limit.log2 := Nat.one_le_two_pow
  rw [roomFor, Nat.one_shiftLeft, Nat.one_shiftLeft]
  split
  next few =>
    constructor <;> omega
  next =>
    rw [← Nat.le_log2 (Nat.ne_of_gt positive), Nat.succ_le_iff, Nat.log2_lt (by omega)]
    omega

/-- Pieces of one size fit into memory up to a power of two of them. -/
theorem fitsInMemory_roomFor_iff {pieces size : Nat} (someBytes : 0 < size * numberBytes)
    (single : size * numberBytes ≤ memoryBytes) :
    fitsInMemory (roomFor pieces * size) ↔
      pieces ≤ 1 <<< (memoryBytes / (size * numberBytes)).log2 := by
  rw [fitsInMemory, decide_eq_true_iff, Nat.mul_assoc, ← Nat.le_div_iff_mul_le someBytes,
    roomFor_le_iff (Nat.div_pos single someBytes)]

/-- There is memory for `2 ^ 58` places, and one in eight stays free. -/
theorem fitsInTable_iff {numbers : Nat} : fitsInTable numbers ↔ numbers ≤ 0x380000000000000 := by
  have places : roomFor ((8 * numbers + 6) / 7) ≤ memoryBytes / placeBytes ↔
      (8 * numbers + 6) / 7 ≤ 0x400000000000000 :=
    roomFor_le_iff (by decide)
  rw [fitsInTable, decide_eq_true_iff, ← Nat.le_div_iff_mul_le (by decide), places]
  omega

end ImmersedBody
