import Mathlib.Tactic
import QuillImage.Bytes

/-!
# Reading bytes back

`littleEndian` cuts a number to its width: `ofLittleEndian_littleEndian` says
which number its bytes spell. A reader takes something from the front of a run of
bytes and gives back the rest of the run: `skip?` and `readBytes?` take a known
number of bytes, `readNumber?` a number, `readWord32?` a word, `readText?` a text up
to a zero byte, and `readList?` a known number of things. The lemma of each reader
says that it undoes the writing, whatever follows in the run.

Runs that are padded to a multiple of a size get `alignUp` many bytes
(`length_padded`), by fewer zero bytes than the size (`exists_padded_eq_append_zeros`).
-/

namespace QuillImage

/-- A run of `width` bytes is written for every number. -/
@[simp]
theorem length_littleEndian (width value : Nat) : (littleEndian width value).length = width := by
  induction width generalizing value with
  | zero => rfl
  | succ width ih => simp [littleEndian, ih]

/-- The bytes of a number spell what is left of it after the cut to the width. -/
theorem ofLittleEndian_littleEndian (width value : Nat) :
    ofLittleEndian (littleEndian width value) = value % 256 ^ width := by
  induction width generalizing value with
  | zero => simp [littleEndian, ofLittleEndian, Nat.mod_one]
  | succ width ih =>
    have hbyte : value.toUInt8.toNat = value % 256 := by simp
    rw [littleEndian, ofLittleEndian, hbyte, ih, pow_succ', Nat.mod_mul]

/-- Takes a number of `width` bytes from the front of a run, and gives back the
rest of the run. -/
def readNumber? (width : Nat) (bs : Bytes) : Option (Nat × Bytes) :=
  if width ≤ bs.length then some (ofLittleEndian (bs.take width), bs.drop width) else none

/-- What is left of a number after the cut to its width is read back, up to the end of
its bytes. -/
theorem readNumber?_littleEndian_mod (width value : Nat) (rest : Bytes) :
    readNumber? width (littleEndian width value ++ rest) = some (value % 256 ^ width, rest) := by
  have hlen : width ≤ (littleEndian width value ++ rest).length := by simp
  have htake : (littleEndian width value ++ rest).take width = littleEndian width value :=
    List.take_left' (length_littleEndian width value)
  have hdrop : (littleEndian width value ++ rest).drop width = rest :=
    List.drop_left' (length_littleEndian width value)
  rw [readNumber?, if_pos hlen, htake, hdrop, ofLittleEndian_littleEndian]

/-- A number that fits its width is read back, up to the end of its bytes. -/
theorem readNumber?_littleEndian {width value : Nat} (h : value < 256 ^ width) (rest : Bytes) :
    readNumber? width (littleEndian width value ++ rest) = some (value, rest) := by
  rw [readNumber?_littleEndian_mod, Nat.mod_eq_of_lt h]

/-- Takes a 32-bit word from the front of a run. -/
def readWord32? (bs : Bytes) : Option (UInt32 × Bytes) :=
  (readNumber? 4 bs).map fun (v, rest) => (UInt32.ofNat v, rest)

@[simp]
theorem length_word16 (v : UInt16) : (word16 v).length = 2 := length_littleEndian 2 _

@[simp]
theorem length_word32 (v : UInt32) : (word32 v).length = 4 := length_littleEndian 4 _

theorem readNumber?_word16 (v : UInt16) (rest : Bytes) :
    readNumber? 2 (word16 v ++ rest) = some (v.toNat, rest) :=
  readNumber?_littleEndian v.toNat_lt rest

theorem readNumber?_word32 (v : UInt32) (rest : Bytes) :
    readNumber? 4 (word32 v ++ rest) = some (v.toNat, rest) :=
  readNumber?_littleEndian v.toNat_lt rest

/-- A word is read back, up to the end of its bytes. -/
theorem readWord32?_word32 (v : UInt32) (rest : Bytes) :
    readWord32? (word32 v ++ rest) = some (v, rest) := by
  rw [readWord32?, readNumber?_word32]
  simp

/-! ## Runs of bytes -/

/-- Leaves out bytes at the front of a run. -/
def skip? (size : Nat) (bs : Bytes) : Option Bytes :=
  if size ≤ bs.length then some (bs.drop size) else none

/-- Takes a number of bytes from the front of a run. -/
def readBytes? (size : Nat) (bs : Bytes) : Option (Bytes × Bytes) :=
  if size ≤ bs.length then some (bs.take size, bs.drop size) else none

/-- Takes the bytes up to the first zero byte, which is left out. -/
def readText? : Bytes → Option (Bytes × Bytes)
  | [] => none
  | b :: bs =>
    if b = 0 then some ([], bs)
    else (readText? bs).map fun (text, rest) => (b :: text, rest)

/-- Bytes of a known number are left out. -/
theorem skip?_append {size : Nat} {bs : Bytes} (h : bs.length = size) (rest : Bytes) :
    skip? size (bs ++ rest) = some rest := by
  have hlen : size ≤ (bs ++ rest).length := by
    rw [List.length_append]
    omega
  rw [skip?, if_pos hlen, List.drop_left' h]

/-- What is left after bytes were left out starts before the end. -/
theorem lt_length_of_skip? {size : Nat} {bs rest : Bytes} (h : skip? size bs = some rest)
    (hrest : rest ≠ []) : size < bs.length := by
  obtain ⟨-, hdrop⟩ := Option.ite_none_right_eq_some.1 h
  obtain rfl := Option.some.inj hdrop
  exact Nat.lt_of_not_le fun hle => hrest (List.drop_eq_nil_of_le hle)

/-- Bytes of a known number are read back. -/
theorem readBytes?_append {size : Nat} {bs : Bytes} (h : bs.length = size) (rest : Bytes) :
    readBytes? size (bs ++ rest) = some (bs, rest) := by
  have hlen : size ≤ (bs ++ rest).length := by
    rw [List.length_append]
    omega
  rw [readBytes?, if_pos hlen, List.take_left' h, List.drop_left' h]

/-- A text is read back up to its first zero byte. -/
theorem exists_readText?_append (text rest : Bytes) :
    ∃ rest', readText? (text ++ 0 :: rest) = some (text.takeWhile (· ≠ 0), rest') := by
  induction text with
  | nil => exact ⟨rest, rfl⟩
  | cons b text ih =>
    obtain ⟨rest', hrest'⟩ := ih
    by_cases hb : b = 0
    · exact ⟨text ++ 0 :: rest, by simp [readText?, hb]⟩
    · exact ⟨rest', by simp [readText?, hb, hrest']⟩

/-- A text without zero bytes is read back whole. -/
theorem readText?_append {text : Bytes} (h : 0 ∉ text) (rest : Bytes) :
    readText? (text ++ 0 :: rest) = some (text, rest) := by
  induction text with
  | nil => rfl
  | cons b text ih =>
    obtain ⟨hb, htext⟩ := not_or.1 (mt List.mem_cons.2 h)
    simp [readText?, Ne.symm hb, ih htext]

/-! ## Lists -/

/-- Takes a number of things from the front of a run. -/
def readList? {α : Type} (read? : Bytes → Option (α × Bytes)) :
    Nat → Bytes → Option (List α × Bytes)
  | 0, bs => some ([], bs)
  | count + 1, bs => do
    let (a, bs) ← read? bs
    let (as, bs) ← readList? read? count bs
    return (a :: as, bs)

/-- What is read of each thing is read of a list of things. -/
theorem readList?_flatMap {α β : Type} {read? : Bytes → Option (β × Bytes)} {write : α → Bytes}
    (view : α → β) (as : List α)
    (h : ∀ a ∈ as, ∀ rest, read? (write a ++ rest) = some (view a, rest)) (rest : Bytes) :
    readList? read? as.length (as.flatMap write ++ rest) = some (as.map view, rest) := by
  induction as with
  | nil => rfl
  | cons a as ih =>
    have hhead := h a List.mem_cons_self (as.flatMap write ++ rest)
    have htail := ih fun b hb => h b (List.mem_cons_of_mem a hb)
    rw [List.flatMap_cons, List.append_assoc, List.length_cons, readList?, hhead]
    simp [htail]

/-- The size of a list of things is the sum of their sizes. -/
theorem length_flatMap_eq_total {α : Type} (write : α → Bytes) (as : List α) :
    (as.flatMap write).length = total (as.map fun a => (write a).length) := by
  induction as with
  | nil => rfl
  | cons a as ih => rw [List.flatMap_cons, List.length_append, ih, List.map_cons, total]

theorem total_map_const {α : Type} (as : List α) (size : Nat) :
    total (as.map fun _ => size) = as.length * size := by
  induction as with
  | nil => simp [total]
  | cons a as ih =>
    rw [List.map_cons, total, ih, List.length_cons]
    ring

/-! ## Padding -/

/-- A quotient rounded up is one more than the quotient, unless nothing remains. -/
theorem add_sub_one_div {divisor : Nat} (h : 0 < divisor) (value : Nat) :
    (value + divisor - 1) / divisor =
      if value % divisor = 0 then value / divisor else value / divisor + 1 := by
  have hdiv := Nat.div_add_mod' value divisor
  have hmod := Nat.mod_lt value h
  split
  · apply Nat.div_eq_of_lt_le
    · omega
    · rw [Nat.succ_mul]
      omega
  · apply Nat.div_eq_of_lt_le
    · rw [Nat.succ_mul]
      omega
    · rw [Nat.succ_mul, Nat.succ_mul]
      omega

theorem le_alignUp {alignment : Nat} (h : 0 < alignment) (value : Nat) :
    value ≤ alignUp value alignment := by
  have hdiv := Nat.div_add_mod (value + alignment - 1) alignment
  have hmod := Nat.mod_lt (value + alignment - 1) h
  rw [alignUp, Nat.mul_comm]
  omega

theorem alignUp_lt_add {alignment : Nat} (h : 0 < alignment) (value : Nat) :
    alignUp value alignment < value + alignment := by
  have hle := Nat.div_mul_le_self (value + alignment - 1) alignment
  rw [alignUp]
  omega

@[simp]
theorem length_zeros (n : Nat) : (zeros n).length = n := List.length_replicate

/-- A padded run has the next multiple of the alignment as its length. -/
theorem length_padded {alignment : Nat} (h : 0 < alignment) (bs : Bytes) :
    (Bytes.padded alignment bs).length = alignUp bs.length alignment := by
  have hle := le_alignUp h bs.length
  simp only [Bytes.padded, Bytes.padTo, List.length_append, length_zeros]
  omega

/-- Fewer zero bytes than the alignment pad a run. -/
theorem exists_padded_eq_append_zeros {alignment : Nat} (h : 0 < alignment) (bs : Bytes) :
    ∃ n < alignment, Bytes.padded alignment bs = bs ++ zeros n := by
  have hlt := alignUp_lt_add h bs.length
  refine ⟨alignUp bs.length alignment - bs.length, ?_, rfl⟩
  omega

/-- A run that is a multiple of the alignment long is not padded. -/
theorem padded_of_mod_eq_zero {alignment : Nat} (ha : 0 < alignment) {bs : Bytes}
    (h : bs.length % alignment = 0) : Bytes.padded alignment bs = bs := by
  rw [Bytes.padded, alignUp, add_sub_one_div ha, if_pos h, Bytes.padTo,
    Nat.div_mul_cancel (Nat.dvd_of_mod_eq_zero h), Nat.sub_self]
  exact List.append_nil bs

/-- What follows a multiple of the alignment is padded on its own. -/
theorem padded_append {alignment : Nat} (ha : 0 < alignment) {front : Bytes}
    (h : front.length % alignment = 0) (bs : Bytes) :
    Bytes.padded alignment (front ++ bs) = front ++ Bytes.padded alignment bs := by
  have halign : alignUp (front.length + bs.length) alignment =
      front.length + alignUp bs.length alignment := by
    obtain ⟨k, hk⟩ := Nat.dvd_of_mod_eq_zero h
    have hsum : alignment * k + bs.length + alignment - 1 =
        alignment * k + (bs.length + alignment - 1) := by omega
    rw [alignUp, alignUp, hk, hsum, Nat.mul_add_div ha, Nat.add_mul, Nat.mul_comm k]
  rw [Bytes.padded, Bytes.padTo, List.length_append, halign, Nat.add_sub_add_left,
    List.append_assoc]
  rfl

/-- Four bytes behind a front are replaced by a word. -/
theorem patch?_append {front old : Bytes} {position : Nat} (hfront : front.length = position)
    (hold : old.length = 4) (rest : Bytes) (v : UInt32) :
    Bytes.patch? (front ++ (old ++ rest)) position v = some (front ++ (word32 v ++ rest)) := by
  have hle : position + 4 ≤ (front ++ (old ++ rest)).length := by
    rw [List.length_append, List.length_append, hfront, hold]
    omega
  rw [Bytes.patch?, if_pos hle, List.take_left' hfront, ← List.drop_drop,
    List.drop_left' hfront, List.drop_left' hold, List.append_assoc]

end QuillImage
