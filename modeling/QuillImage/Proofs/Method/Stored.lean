import Mathlib.Tactic
import QuillImage.Proofs.Method.Code
import QuillImage.Proofs.Method.Runs

/-!
# Reading stored methods

What the header of a method has to say about the method (`StoredHeader.Describes`), and that
the headers which are chosen for methods say it.

Main statement: whatever operations fill a body, its code is read back as the instructions of
the operations that succeeded, and a header that was chosen for the body is read back with
the code behind it (`Body.readCode?_run_and_readHeader?_assemble`).
-/

namespace QuillImage.Method

/-! ## Descriptions -/

/-- What the header of a method has to say about the size of its code, a stack of at least
a size, and the token of its local variables. -/
structure StoredHeader.Describes (s : StoredHeader) (size : Nat) (stack : UInt16)
    (token : UInt32) : Prop where
  codeSize : s.codeSize = size
  locals : s.locals = token
  maxStack_of_fat : s.isTiny = false → s.maxStack = stack.toNat
  maxStack_of_tiny : s.isTiny = true → stack.toNat ≤ s.maxStack
  initLocals_iff : s.initLocals = true ↔ token ≠ 0
  moreSections : s.moreSections = false
  isTiny_iff : s.isTiny = true ↔ size < 64 ∧ stack.toNat ≤ 8 ∧ token = 0

/-! ## Headers -/

namespace Header

/-- The size of a header is the number of its bytes. -/
theorem size_eq_length_bytes (h : Header) : h.size = h.bytes.length := by
  rw [size, bytes]
  split
  · rfl
  · simp only [List.length_append, length_word16, length_word32]

variable {codeSize : UInt32} {maxStack : UInt16} {locals : UInt32}

/-- The flags of a header that is not tiny. -/
def fatFlagsFor (locals : UInt32) : UInt16 :=
  if locals ≠ 0 then fatFlags ||| initLocals else fatFlags

theorem ofCode_of_pos (h : codeSize ≤ 0x3f ∧ maxStack ≤ 8 ∧ locals = 0) :
    ofCode codeSize maxStack locals = ⟨tinyFlags, maxStack, codeSize, locals⟩ := by
  rw [ofCode, if_pos h]

theorem ofCode_of_neg (h : ¬ (codeSize ≤ 0x3f ∧ maxStack ≤ 8 ∧ locals = 0)) :
    ofCode codeSize maxStack locals = ⟨fatFlagsFor locals, maxStack, codeSize, locals⟩ := by
  rw [ofCode, if_neg h, fatFlagsFor]

/-- What is in the bits of the flags of a fat header: the format, the size in units of four
bytes, whether local variables start as zero, and that no sections follow. -/
theorem fatFlagsFor_bits (locals : UInt32) :
    (fatFlagsFor locals).toNat % 4 = 3 ∧ (fatFlagsFor locals).toNat / 0x1000 = 3 ∧
      ((fatFlagsFor locals).toNat.testBit 4 = true ↔ locals ≠ 0) ∧
        (fatFlagsFor locals).toNat.testBit 3 = false := by
  by_cases h : locals = 0
  · rw [fatFlagsFor, if_neg (not_not_intro h)]
    refine ⟨by decide, by decide, ?_, by decide⟩
    exact ⟨fun hbit => absurd hbit (by decide), fun hne => absurd h hne⟩
  · rw [fatFlagsFor, if_pos h]
    exact ⟨by decide, by decide, ⟨fun _ => h, fun _ => by decide⟩, by decide⟩

/-- Fat flags are not taken for tiny ones. -/
theorem isTiny_fat : isTiny ⟨fatFlagsFor locals, maxStack, codeSize, locals⟩ = false := by
  obtain ⟨hformat, -⟩ := fatFlagsFor_bits locals
  simp only [isTiny, beq_eq_false_iff_ne, ne_eq]
  intro htiny
  rw [htiny] at hformat
  exact absurd hformat (by decide)

/-- The condition for the tiny form in numbers. -/
theorem tiny_condition_iff : (codeSize ≤ 0x3f ∧ maxStack ≤ 8 ∧ locals = 0) ↔
    codeSize.toNat < 64 ∧ maxStack.toNat ≤ 8 ∧ locals = 0 := by
  rw [UInt32.le_iff_toNat_le, UInt16.le_iff_toNat_le]
  exact and_congr_left' Nat.lt_succ_iff.symm

end Header

/-! ## Reading back -/

/-- A fat header is read back, given the format in the low bits of its flags and its size in
the high ones. -/
theorem readHeader?_of_not_isTiny {h : Header} (hfat : h.isTiny = false)
    (hformat : h.flags.toNat % 4 = 3) (hunits : h.flags.toNat / 0x1000 = 3) (rest : Bytes) :
    readHeader? (h.bytes ++ rest) =
      some (⟨false, h.maxStack.toNat, h.codeSize.toNat, h.locals, h.flags.toNat.testBit 4,
        h.flags.toNat.testBit 3⟩, rest) := by
  have hbytes : h.bytes ++ rest = word16 h.flags ++ (word16 h.maxStack ++ (word32 h.codeSize ++
      (word32 h.locals ++ rest))) := by
    rw [Header.bytes, hfat]
    simp only [Bool.false_eq_true, ↓reduceIte, List.append_assoc]
  have hread : readFatHeader? (h.bytes ++ rest) =
      some (⟨false, h.maxStack.toNat, h.codeSize.toNat, h.locals, h.flags.toNat.testBit 4,
        h.flags.toNat.testBit 3⟩, rest) := by
    simp only [hbytes, readFatHeader?, readNumber?_word16, readNumber?_word32, readWord32?_word32,
      Option.bind_eq_bind, Option.bind_some, guard, hunits, ↓reduceIte, Option.pure_def]
  obtain ⟨b, bs, hb, hcons⟩ : ∃ (b : UInt8) (bs : Bytes), b.toNat % 4 = 3 ∧
      h.bytes ++ rest = b :: bs := by
    have hbyte : h.flags.toNat.toUInt8.toNat = h.flags.toNat % 256 := by simp
    rw [hbytes, word16, littleEndian, List.cons_append]
    exact ⟨_, _, by rw [hbyte]; omega, rfl⟩
  rw [hcons] at hread ⊢
  simp only [readHeader?, hb, hread]

/-- The header that is chosen for a method is read back, and says what it was made of. -/
theorem exists_readHeader?_ofCode (codeSize : UInt32) (maxStack : UInt16) (locals : UInt32)
    (rest : Bytes) :
    ∃ s, readHeader? ((Header.ofCode codeSize maxStack locals).bytes ++ rest) = some (s, rest) ∧
      s.isTiny = (Header.ofCode codeSize maxStack locals).isTiny ∧
        s.Describes codeSize.toNat maxStack locals := by
  by_cases h : codeSize ≤ 0x3f ∧ maxStack ≤ 8 ∧ locals = 0
  · obtain ⟨hsize, hstack, hlocals⟩ := Header.tiny_condition_iff.1 h
    rw [Header.ofCode_of_pos h]
    refine ⟨_, readHeader?_of_isTiny rfl hsize rest, rfl, ?_⟩
    constructor
    case codeSize => rfl
    case locals => exact hlocals.symm
    case maxStack_of_fat => nofun
    case maxStack_of_tiny => exact fun _ => hstack
    case initLocals_iff => simp [hlocals]
    case moreSections => rfl
    case isTiny_iff => simp [hsize, hstack, hlocals]
  · obtain ⟨hformat, hunits, hinit, hmore⟩ := Header.fatFlagsFor_bits locals
    rw [Header.ofCode_of_neg h]
    refine ⟨_, readHeader?_of_not_isTiny Header.isTiny_fat hformat hunits rest,
      Header.isTiny_fat.symm, ?_⟩
    constructor
    case codeSize => rfl
    case locals => rfl
    case maxStack_of_fat => exact fun _ => rfl
    case maxStack_of_tiny => nofun
    case initLocals_iff => exact hinit
    case moreSections => exact hmore
    case isTiny_iff => exact ⟨nofun, fun htiny => absurd (Header.tiny_condition_iff.2 htiny) h⟩

/-! ## Bodies -/

namespace Body

variable {ops : List Operation} {outcomes : List (Option Failure)} {b : Body}

/-- The instructions of a body are those of the operations that succeeded. -/
theorem instructions_run (h : empty.run ops = some (outcomes, b)) :
    b.instructions.toList = (succeeded ops outcomes).map Operation.instruction := by
  refine run_induction (I := fun ops outcomes b =>
    b.instructions.toList = (succeeded ops outcomes).map Operation.instruction) rfl ?_ ?_ h
  · intro ops outcomes b o hrun ih _
    rw [succeeded_concat (length_outcomes hrun), ih]
    simp
  · intro ops outcomes b o hrun ih _ _
    rw [succeeded_concat (length_outcomes hrun), instructions_push, ih]
    simp

/-- The code of a body that operations filled is read back as the instructions of those that
succeeded. For every stack size and token, the header that is chosen for the body has the
size that it says, is read back with what it was made of, and leaves the code. -/
theorem readCode?_run_and_readHeader?_assemble (h : empty.run ops = some (outcomes, b))
    (hsize : b.codeSize < 2 ^ 32) :
    readCode? b.code = some ((succeeded ops outcomes).map Operation.instruction) ∧
      ∀ (maxStack : UInt16) (locals : UInt32),
        let header := Header.ofCode (UInt32.ofNat b.codeSize) maxStack locals
        header.size = header.bytes.length ∧
          ∃ s, readHeader? (b.assemble header) = some (s, b.code) ∧ s.isTiny = header.isTiny ∧
            s.Describes b.codeSize maxStack locals := by
  refine ⟨?_, ?_⟩
  · rw [code, instructions_run h]
    exact readCode?_flatMap_encode _
  · intro maxStack locals header
    have hword : (UInt32.ofNat b.codeSize).toNat = b.codeSize := UInt32.toNat_ofNat_of_lt hsize
    obtain ⟨s, hread, htiny, hs⟩ :=
      exists_readHeader?_ofCode (UInt32.ofNat b.codeSize) maxStack locals b.code
    rw [hword] at hs
    exact ⟨header.size_eq_length_bytes, s, hread, htiny, hs⟩

theorem readCode?_callBody :
    ∃ outcomes, empty.run refusedTwice = some (outcomes, callBody) ∧
      callBody.codeSize < 2 ^ 32 ∧
      readCode? callBody.code =
        some [.ldcI4 (-0x5a8d8d8e), .ldstr 0x70000001, .call 0x0a000001, .ret] ∧
      ∃ s, readHeader? (callBody.assemble (Header.ofCode 16 2 0x11000001)) =
        some (s, callBody.code) ∧ s.Describes 16 2 0x11000001 := by
  have hsize : callBody.codeSize < 2 ^ 32 := by decide
  obtain ⟨hcode, hheader⟩ := readCode?_run_and_readHeader?_assemble run_refusedTwice hsize
  obtain ⟨-, s, hread, -, hs⟩ := hheader 2 0x11000001
  exact ⟨_, run_refusedTwice, hsize, hcode, s, hread, hs⟩

end Body

end QuillImage.Method
