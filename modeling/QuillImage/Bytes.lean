/-!
# Bytes and alignment

Every number of an image is written with its least significant byte first, at a
fixed width, and every gap is filled with zero bytes. This file defines the
writing of numbers (`littleEndian`) with its reading (`ofLittleEndian`),
alignment of sizes (`alignUp`, and `alignUp?` with the limits of word arithmetic)
and padding of byte runs.
-/

namespace QuillImage

/-- A run of bytes, the first byte first. -/
abbrev Bytes := List UInt8

/-- The `width` low bytes of `value`, least significant first. Higher bytes are
lost. -/
def littleEndian : (width value : Nat) → Bytes
  | 0, _ => []
  | width + 1, value => value.toUInt8 :: littleEndian width (value / 256)

/-- The number that a run of bytes spells, least significant byte first. -/
def ofLittleEndian : Bytes → Nat
  | [] => 0
  | b :: bs => b.toNat + 256 * ofLittleEndian bs

/-- The two bytes of a 16-bit word. -/
def word16 (v : UInt16) : Bytes := littleEndian 2 v.toNat

/-- The four bytes of a 32-bit word. -/
def word32 (v : UInt32) : Bytes := littleEndian 4 v.toNat

/-- The eight bytes of a 64-bit word. -/
def word64 (v : UInt64) : Bytes := littleEndian 8 v.toNat

/-- A run of `n` zero bytes. -/
def zeros (n : Nat) : Bytes := List.replicate n 0

/-- The UTF-8 bytes of a text. -/
def utf8 (s : String) : Bytes := s.toUTF8.data.toList

/-- The sum of sizes. -/
def total : List Nat → Nat
  | [] => 0
  | size :: rest => size + total rest

/-! ## Alignment -/

/-- The least multiple of `alignment` that is at least `value`. -/
def alignUp (value alignment : Nat) : Nat :=
  (value + alignment - 1) / alignment * alignment

/-- A number as a word of `bits` bits. There is none when the number does not fit. -/
def toWord? (bits n : Nat) : Option Nat :=
  if n < Nat.pow 2 bits then some n else none

/-- The quotient of words of `bits` bits, rounded up. There is none by zero. -/
def divUp? (bits value divisor : Nat) : Option Nat :=
  if divisor = 0 then none
  else if value % divisor = 0 then some (value / divisor)
  else toWord? bits (value / divisor + 1)

/-- `alignUp` in words of `bits` bits: the rounded quotient times the alignment. There
is no result for the alignment zero, or when a number on the way does not fit a
word. -/
def alignUp? (bits value alignment : Nat) : Option Nat := do
  let quotient ← divUp? bits value alignment
  toWord? bits (quotient * alignment)

namespace Bytes

/-- Zero bytes appended up to the size `size`. -/
def padTo (size : Nat) (bs : Bytes) : Bytes := bs ++ zeros (size - bs.length)

/-- Zero bytes appended up to the next multiple of `alignment`. -/
def padded (alignment : Nat) (bs : Bytes) : Bytes :=
  bs.padTo (alignUp bs.length alignment)

/-- The bytes cut to the size `size`, or extended to it by zero bytes. -/
def resize (bs : Bytes) (size : Nat) : Bytes := bs.take size ++ zeros (size - bs.length)

/-- The bytes resized to the next multiple of `alignment`, with sizes in 64-bit words.
There is no result where `alignUp?` has none. -/
def align? (alignment : Nat) (bs : Bytes) : Option Bytes :=
  (alignUp? 64 bs.length alignment).map bs.resize

/-- The four bytes from position `at` on replaced by a word. All four must be
there. -/
def patch? (bs : Bytes) (position : Nat) (v : UInt32) : Option Bytes :=
  if position + 4 ≤ bs.length then
    some (bs.take position ++ word32 v ++ bs.drop (position + 4))
  else none

end Bytes

end QuillImage
