import QuillImage.Failure
import QuillImage.Text.Utf16

/-!
# Heaps

A heap is a run of bytes that only grows: an insertion appends an entry, fills up
to a multiple of four with zero bytes and gives back the offset of the entry.
Nothing is shared, so equal entries are stored twice. This file defines the heap
and the entries of the four heaps: names are ended by a zero byte, literals and
binary values begin with a length byte, and identifiers of 16 bytes stand bare.
-/

namespace QuillImage.Metadata

open Text

/-- The heaps of the metadata database. -/
inductive HeapName where
  | strings
  | userStrings
  | blob
  | guid
  deriving DecidableEq, Repr

namespace HeapName

/-- The name of the stream that holds the heap. -/
def stream : HeapName → String
  | strings => "#Strings"
  | userStrings => "#US"
  | blob => "#Blob"
  | guid => "#GUID"

end HeapName

/-- A heap. -/
structure Heap where
  /-- The content, padding included. -/
  bytes : Bytes
  deriving DecidableEq, Repr

namespace Heap

/-- The heap without content. -/
def empty : Heap := ⟨[]⟩

/-- The size of the heap in bytes. -/
def size (h : Heap) : Nat := h.bytes.length

/-- The size of the heap as a word. Higher bits are lost. -/
def wordSize (h : Heap) : UInt32 := UInt32.ofNat h.size

/-- Appends an entry and pads the heap to a multiple of four. Gives back the
offset of the entry. -/
def insert (h : Heap) (entry : Bytes) : Nat × Heap :=
  (h.size, ⟨Bytes.padded 4 (h.bytes ++ entry)⟩)

/-- The heap that holds one empty entry, at offset zero. -/
def initial : Heap := (empty.insert [0]).2

end Heap

/-! ## Entries -/

/-- The entry of a name: its UTF-8 bytes and a zero byte. -/
def stringEntry (s : String) : Bytes := utf8 s ++ [0]

/-- The largest number of code units of a literal: its length byte is less than
`0x80`. -/
def maxUserStringUnits : Nat := 0x3f

/-- Code units that set the last byte of a literal: those with a high byte, some
control characters, the apostrophe, the hyphen and the delete character. -/
def needsHandling (unit : UInt16) : Bool :=
  let n := unit.toNat
  n ≥ 0x100 || (0x01 ≤ n && n ≤ 0x08) || (0x0e ≤ n && n ≤ 0x1f) || n == 0x27 || n == 0x2d ||
    n == 0x7f

/-- The entry of a literal: a length byte, the code units, and a byte that is one
if some unit needs handling. -/
def userStringEntry (s : String) : Except Failure Bytes :=
  let units := utf16 s
  if units.length > maxUserStringUnits then
    .error (.heapEntryTooLarge HeapName.userStrings.stream units.length maxUserStringUnits)
  else
    .ok (UInt8.ofNat (units.length * 2 + 1) ::
      units.flatMap word16 ++ [if units.any needsHandling then 1 else 0])

/-- The largest size of a binary value: its length byte is less than `0x80`. -/
def maxBlobLength : Nat := 0x7f

/-- The entry of a binary value: a length byte and the value. -/
def blobEntry (blob : Bytes) : Except Failure Bytes :=
  if blob.length > maxBlobLength then
    .error (.heapEntryTooLarge HeapName.blob.stream blob.length maxBlobLength)
  else .ok (UInt8.ofNat blob.length :: blob)

namespace Heap

/-- Inserts a name. -/
def insertString (h : Heap) (s : String) : Nat × Heap := h.insert (stringEntry s)

/-- Inserts a literal. -/
def insertUserString (h : Heap) (s : String) : Except Failure (Nat × Heap) :=
  (userStringEntry s).map h.insert

/-- Inserts a binary value. -/
def insertBlob (h : Heap) (blob : Bytes) : Except Failure (Nat × Heap) :=
  (blobEntry blob).map h.insert

/-- The number of 16-byte identifiers in the heap. -/
def guidCount (h : Heap) : UInt32 := h.wordSize / 16

end Heap

/-- The four heaps of a database. -/
structure Heaps where
  strings : Heap := .initial
  userStrings : Heap := .initial
  blobs : Heap := .initial
  guids : Heap := .empty
  deriving DecidableEq, Repr

end QuillImage.Metadata
