import QuillImage.Failure
import QuillImage.Image.Header

/-!
# The section of an image

The one section of an image is filled from its start. Every structure in it is
known by its address: the address of the section plus the offset in it. The offset
is cut to a 32-bit word, and the address has to fit one.
-/

namespace QuillImage.Image

/-- The contents of a section, and its address. -/
structure Section where
  base : UInt32
  data : Bytes := []
  deriving DecidableEq, Repr

namespace Section

/-- The offset of the next byte. -/
def offset (s : Section) : Nat := s.data.length

/-- The address of the next byte. -/
def address (s : Section) : Except Halt UInt32 := addWords s.base (UInt32.ofNat s.offset)

/-- The section with bytes at its end. -/
def append (s : Section) (bytes : Bytes) : Section := { s with data := s.data ++ bytes }

/-- The section with zero bytes up to a multiple of `alignment`. -/
def align (s : Section) (alignment : Nat) : Section :=
  { s with data := s.data.padded alignment }

/-- The section with a word in place of the four bytes at an offset. -/
def patch (s : Section) (offset : Nat) (v : UInt32) : Except Halt Section :=
  match s.data.patch? offset v with
  | some data => .ok { s with data }
  | none => .error .overflow

end Section

end QuillImage.Image
