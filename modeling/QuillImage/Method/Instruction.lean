import QuillImage.Bytes

/-!
# Instructions

The stack-machine instructions that method bodies are made of. Each has a
one-byte opcode, a mnemonic and at most one 32-bit operand. An `Operation` is an
instruction together with what it does to the evaluation stack; a call and a
return take that from the method they belong to.
-/

namespace QuillImage.Method

/-- The opcodes in use. -/
inductive Opcode where
  | nop
  | ldnull
  | ldcI4
  | pop
  | call
  | ret
  | ldstr
  deriving DecidableEq, Repr

namespace Opcode

/-- Every opcode, in ascending order of its byte. -/
def all : List Opcode := [nop, ldnull, ldcI4, pop, call, ret, ldstr]

/-- The byte that encodes the opcode. -/
def byte : Opcode → UInt8
  | nop => 0x00
  | ldnull => 0x14
  | ldcI4 => 0x20
  | pop => 0x26
  | call => 0x28
  | ret => 0x2a
  | ldstr => 0x72

/-- The name of the opcode in messages. -/
def mnemonic : Opcode → String
  | nop => "nop"
  | ldnull => "ldnull"
  | ldcI4 => "ldc.i4"
  | pop => "pop"
  | call => "call"
  | ret => "ret"
  | ldstr => "ldstr"

end Opcode

/-- An instruction with its operand. -/
inductive Instruction where
  | nop
  | ldnull
  /-- Loads a 32-bit number. -/
  | ldcI4 (value : Int32)
  /-- Loads the string literal of a token. -/
  | ldstr (token : UInt32)
  | pop
  /-- Calls the method of a token. -/
  | call (token : UInt32)
  | ret
  deriving DecidableEq, Repr

namespace Instruction

/-- The opcode of an instruction. -/
def opcode : Instruction → Opcode
  | nop => .nop
  | ldnull => .ldnull
  | ldcI4 _ => .ldcI4
  | ldstr _ => .ldstr
  | pop => .pop
  | call _ => .call
  | ret => .ret

/-- The bytes of the operand. -/
def operand : Instruction → Bytes
  | ldcI4 value => word32 value.toUInt32
  | ldstr token | call token => word32 token
  | nop | ldnull | pop | ret => []

/-- The opcode byte followed by the operand. -/
def encode (i : Instruction) : Bytes := i.opcode.byte :: i.operand

end Instruction

/-- A request to emit an instruction, with its use of the evaluation stack. -/
inductive Operation where
  | nop
  | ldnull
  | ldcI4 (value : Int32)
  | ldstr (token : UInt32)
  | pop
  /-- Calls a method that takes `args` values and may give one back. -/
  | call (token : UInt32) (args : UInt16) (returnsValue : Bool)
  /-- Leaves the method, with a value if the method gives one. -/
  | ret (returnsValue : Bool)
  deriving DecidableEq, Repr

namespace Operation

/-- The instruction to emit. -/
def instruction : Operation → Instruction
  | nop => .nop
  | ldnull => .ldnull
  | ldcI4 value => .ldcI4 value
  | ldstr token => .ldstr token
  | pop => .pop
  | call token _ _ => .call token
  | ret _ => .ret

/-- The number of values taken from the stack. -/
def pops : Operation → Nat
  | nop | ldnull | ldcI4 _ | ldstr _ => 0
  | pop => 1
  | call _ args _ => args.toNat
  | ret returnsValue => returnsValue.toNat

/-- The number of values put on the stack. -/
def pushes : Operation → Nat
  | nop | pop | ret _ => 0
  | ldnull | ldcI4 _ | ldstr _ => 1
  | call _ _ returnsValue => returnsValue.toNat

end Operation

end QuillImage.Method
