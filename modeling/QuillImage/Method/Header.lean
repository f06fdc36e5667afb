import QuillImage.Event
import QuillImage.Method.Body

/-!
# Method headers

A method is stored as a header followed by its code. The tiny header is one byte;
it is chosen when the code is short, eight stack slots are enough and there are
no local variables. The fat header has twelve bytes.
-/

namespace QuillImage.Method

/-- The header of a method. -/
structure Header where
  flags : UInt16
  maxStack : UInt16
  codeSize : UInt32
  /-- The token of the signature of the local variables, zero for none. -/
  locals : UInt32
  deriving DecidableEq, Repr

namespace Header

/-- The flags of a tiny header. -/
def tinyFlags : UInt16 := 0x2

/-- The flags of a fat header: its size of three 4-byte units in the high bits,
and the format. -/
def fatFlags : UInt16 := 0x3003

/-- The flag of a method whose local variables start as zero. -/
def initLocals : UInt16 := 0x10

/-- The header of a method, tiny whenever that is possible. -/
def ofCode (codeSize : UInt32) (maxStack : UInt16) (locals : UInt32) : Header :=
  let flags :=
    if codeSize ≤ 0x3f ∧ maxStack ≤ 8 ∧ locals = 0 then tinyFlags
    else if locals ≠ 0 then fatFlags ||| initLocals
    else fatFlags
  { flags, maxStack, codeSize, locals }

/-- Whether the header is stored in the tiny form. -/
def isTiny (h : Header) : Bool := h.flags == tinyFlags

/-- The size of the header. -/
def size (h : Header) : Nat := if h.isTiny then 1 else 12

/-- The stored form. A tiny header holds the low six bits of the code size above
its format. -/
def bytes (h : Header) : Bytes :=
  if h.isTiny then [UInt8.ofNat (h.codeSize.toNat * 4) ||| 0x2]
  else word16 h.flags ++ word16 h.maxStack ++ word32 h.codeSize ++ word32 h.locals

end Header

/-- A header followed by the code of a body. -/
def Body.assemble (b : Body) (h : Header) : Bytes := h.bytes ++ b.code

/-! ## The entry point -/

/-- The stack size that the entry point declares. -/
def entryPointMaxStack : UInt16 := 8

/-- The operations of the entry point: load a literal, pass it to a method, and
return. -/
def entryPointOperations (literal method : UInt32) : List Operation :=
  [.ldstr literal, .call method 1 false, .ret false]

/-- The stored entry point, with what is reported about it. -/
def entryPoint (literal method : UInt32) : Except Halt (Bytes × List Event) := do
  let body ← (entryPointOperations literal method).foldlM (fun b o => b.emit o) Body.empty
  let header := Header.ofCode (UInt32.ofNat body.codeSize) entryPointMaxStack 0
  return (body.assemble header, [.assembledEntryPoint body.codeSize body.maxDepth])

end QuillImage.Method
