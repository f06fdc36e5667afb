import Mathlib.Tactic
import QuillImage.Method.Header
import QuillImage.Proofs.Bytes

/-!
# Reading method bodies

A disassembler, and a reader of method headers that knows nothing but the bytes: the two
low bits of the first byte tell a tiny header from a fat one. The code of a list of
instructions is read back as that list (`readCode?_flatMap_encode`), and so is the
code of a method that is short enough for the tiny header
(`readTinyMethod?_append`).
-/

namespace QuillImage.Method

/-! ## Readers -/

/-- Reads the operand of an instruction. -/
def readOperand? (make : UInt32 → Instruction) (bs : Bytes) : Option (Instruction × Bytes) :=
  (readWord32? bs).map fun (v, rest) => (make v, rest)

/-- Reads an instruction: its opcode byte, and its operand if it has one. -/
def readInstruction? : Bytes → Option (Instruction × Bytes)
  | [] => none
  | b :: bs =>
    match Opcode.all.find? (·.byte = b) with
    | none => none
    | some .nop => some (.nop, bs)
    | some .ldnull => some (.ldnull, bs)
    | some .ldcI4 => readOperand? (fun v => .ldcI4 v.toInt32) bs
    | some .pop => some (.pop, bs)
    | some .call => readOperand? .call bs
    | some .ret => some (.ret, bs)
    | some .ldstr => readOperand? .ldstr bs

/-- Reads instructions up to the end of the code. There are at most as many of them as
there are bytes. -/
def readCode? (code : Bytes) : Option (List Instruction) := go code.length code
where
  /-- Reads at most a number of instructions. -/
  go : Nat → Bytes → Option (List Instruction)
    | 0, bs => if bs = [] then some [] else none
    | fuel + 1, bs =>
      if bs = [] then some [] else do
        let (i, bs) ← readInstruction? bs
        return i :: (← go fuel bs)

/-- What a header says about its method. -/
structure StoredHeader where
  isTiny : Bool
  maxStack : Nat
  codeSize : Nat
  /-- The token of the signature of the local variables, zero for none. -/
  locals : UInt32
  /-- Whether local variables start as zero. -/
  initLocals : Bool
  /-- Whether sections of data follow the code. -/
  moreSections : Bool
  deriving DecidableEq

/-- Reads a fat header. The flags hold its size in units of four bytes in their four high
bits. -/
def readFatHeader? (bs : Bytes) : Option (StoredHeader × Bytes) := do
  let (flags, bs) ← readNumber? 2 bs
  guard (flags / 0x1000 = 3)
  let (maxStack, bs) ← readNumber? 2 bs
  let (codeSize, bs) ← readNumber? 4 bs
  let (locals, bs) ← readWord32? bs
  return ({
    isTiny := false
    maxStack, codeSize, locals
    initLocals := flags.testBit 4
    moreSections := flags.testBit 3 }, bs)

/-- Reads a header. A tiny one has the size of the code above the two bits of its format,
eight stack slots and no local variables. -/
def readHeader? : Bytes → Option (StoredHeader × Bytes)
  | [] => none
  | b :: bs =>
    match b.toNat % 4 with
    | 2 => some ({
        isTiny := true
        maxStack := 8
        codeSize := b.toNat / 4
        locals := 0
        initLocals := false
        moreSections := false }, bs)
    | 3 => readFatHeader? (b :: bs)
    | _ => none

/-- Reads the code of a method with a tiny header. -/
def readTinyMethod? (bs : Bytes) : Option Bytes := do
  let (header, bs) ← readHeader? bs
  guard header.isTiny
  let (code, _) ← readBytes? header.codeSize bs
  return code

/-! ## Instructions -/

theorem readOperand?_word32 (make : UInt32 → Instruction) (v : UInt32) (rest : Bytes) :
    readOperand? make (word32 v ++ rest) = some (make v, rest) := by
  rw [readOperand?, readWord32?_word32]
  rfl

/-- An instruction is read back up to the end of its bytes. -/
theorem readInstruction?_encode (i : Instruction) (rest : Bytes) :
    readInstruction? (i.encode ++ rest) = some (i, rest) := by
  cases i with
  | nop | ldnull | pop | ret => rfl
  | ldcI4 value => exact readOperand?_word32 (fun v => .ldcI4 v.toInt32) value.toUInt32 rest
  | ldstr token => exact readOperand?_word32 .ldstr token rest
  | call token => exact readOperand?_word32 .call token rest

/-- Instructions are read back from their code. -/
theorem readCode?_flatMap_encode (is : List Instruction) :
    readCode? (is.flatMap Instruction.encode) = some is := by
  have hgo : ∀ fuel, (is.flatMap Instruction.encode).length ≤ fuel →
      readCode?.go fuel (is.flatMap Instruction.encode) = some is := by
    induction is with
    | nil =>
      intro fuel _
      cases fuel <;> rfl
    | cons i is ih =>
      intro fuel hfuel
      have hne : i.encode ++ is.flatMap Instruction.encode ≠ [] := List.cons_ne_nil _ _
      rw [List.flatMap_cons, List.length_append, Instruction.encode, List.length_cons] at hfuel
      obtain ⟨fuel, rfl⟩ : ∃ n, fuel = n + 1 := ⟨fuel - 1, by omega⟩
      rw [List.flatMap_cons, readCode?.go, if_neg hne, readInstruction?_encode]
      simp [ih fuel (by omega)]
  exact hgo _ le_rfl

/-! ## Methods -/

/-- The byte of a tiny header has the code size above the two bits of its format. -/
theorem toNat_tinyByte {n : Nat} (h : n < 64) : (UInt8.ofNat (n * 4) ||| 0x2).toNat = n * 4 + 2 := by
  have hall : ∀ n < 64, (UInt8.ofNat (n * 4) ||| 0x2).toNat = n * 4 + 2 := by decide
  exact hall n h

theorem readHeader?_of_isTiny {h : Header} (htiny : h.isTiny = true) (hsize : h.codeSize.toNat < 64)
    (rest : Bytes) :
    readHeader? (h.bytes ++ rest) =
      some (⟨true, 8, h.codeSize.toNat, 0, false, false⟩, rest) := by
  have hformat : (h.codeSize.toNat * 4 + 2) % 4 = 2 := by omega
  have hcode : (h.codeSize.toNat * 4 + 2) / 4 = h.codeSize.toNat := by omega
  rw [Header.bytes, if_pos htiny, List.singleton_append]
  simp only [readHeader?, toNat_tinyByte hsize, hformat, hcode]

/-- A short method is read back by its tiny header. -/
theorem readTinyMethod?_append {h : Header} (htiny : h.isTiny = true) {code : Bytes}
    (hsize : h.codeSize.toNat = code.length) (hlt : code.length < 64) (rest : Bytes) :
    readTinyMethod? (h.bytes ++ (code ++ rest)) = some code := by
  rw [← hsize] at hlt
  rw [readTinyMethod?, readHeader?_of_isTiny htiny hlt]
  simp only [Option.bind_eq_bind, Option.bind_some, guard, ↓reduceIte, Option.pure_def,
    readBytes?_append hsize.symm]

/-- The entry point is a method with a tiny header of one byte, whose code loads the
literal, calls the method and returns. -/
theorem exists_entryPoint (literal method : UInt32) :
    ∃ bytes events code, entryPoint literal method = .ok (bytes, events) ∧ bytes.length = 12 ∧
      code.length = 11 ∧ readCode? code = some [.ldstr literal, .call method, .ret] ∧
        ∀ rest, readTinyMethod? (bytes ++ rest) = some code := by
  have htiny : (Header.ofCode 11 entryPointMaxStack 0).isTiny = true := rfl
  have hlength : ([Instruction.ldstr literal, .call method, .ret].flatMap
      Instruction.encode).length = 11 := rfl
  refine ⟨(Header.ofCode 11 entryPointMaxStack 0).bytes ++
    [Instruction.ldstr literal, .call method, .ret].flatMap Instruction.encode, _, _, rfl, rfl,
    hlength, readCode?_flatMap_encode _, fun rest => ?_⟩
  rw [List.append_assoc, readTinyMethod?_append htiny hlength.symm (by omega)]

end QuillImage.Method
