import QuillImage.Failure
import QuillImage.Method.Instruction

/-!
# Method bodies

A method body is the list of the instructions emitted so far with the depth of
the evaluation stack after them and the greatest depth on the way. An operation
that takes more values than there are is refused and leaves the body as it was.
Depths are 16-bit words.
-/

namespace QuillImage.Method

/-- A method body in the making. -/
structure Body where
  /-- The instructions in the order of emission. -/
  instructions : Array Instruction := #[]
  /-- The number of values on the evaluation stack. -/
  depth : Nat := 0
  /-- The greatest depth so far. -/
  maxDepth : Nat := 0
  deriving DecidableEq, Repr

namespace Body

/-- The body without instructions. -/
def empty : Body := {}

/-- The encoded instructions. -/
def code (b : Body) : Bytes := b.instructions.toList.flatMap Instruction.encode

/-- The size of the encoded instructions. -/
def codeSize (b : Body) : Nat := b.code.length

/-- The depth after an operation. -/
def depthAfter (b : Body) (o : Operation) : Nat := b.depth - o.pops + o.pushes

/-- Why an operation is refused, if it is. -/
def refusal? (b : Body) (o : Operation) : Option Halt :=
  if b.depth < o.pops then
    some (.failure (.stackUnderflow o.instruction.opcode.mnemonic o.pops b.depth))
  else if 0x10000 ≤ b.depthAfter o then some .overflow
  else none

/-- The body with the instruction of an operation at its end. -/
def push (o : Operation) : Body → Body
  | ⟨instructions, depth, maxDepth⟩ =>
    let after := depth - o.pops + o.pushes
    ⟨instructions.push o.instruction, after, max maxDepth after⟩

/-- Tries an operation: why it is refused, if it is, and the body after it. -/
def attempt (b : Body) (o : Operation) : Option Halt × Body :=
  match b.refusal? o with
  | some halt => (some halt, b)
  | none => (none, b.push o)

/-- Emits the instruction of an operation. -/
def emit (o : Operation) (b : Body) : Except Halt Body :=
  match b.attempt o with
  | (none, b) => .ok b
  | (some halt, _) => .error halt

end Body

end QuillImage.Method
