import Mathlib.Data.List.TakeWhile
import Mathlib.Tactic
import QuillImage.Proofs.Metadata.Heap

/-!
# What heap entries hold

The readers of heap entries against the texts and values that the entries were made of.

* A name is read back up to its first U+0000, so all of it exactly if it has none
  (`takeWhile_utf8`, `takeWhile_utf8_eq_iff`).
* A literal is read back as its code units, which decode to its characters, with a mark
  that says whether some unit is special (`literalPartsAt?_of_skip?`,
  `decodeUtf16?_utf16`).
* A binary value is read back as it is (`blobAt?_of_blobEntry`).
-/

namespace QuillImage

open Text

/-! ## Names -/

/-- The text before its first U+0000. -/
def beforeNul (s : String) : String := String.ofList (s.toList.takeWhile (· ≠ '\x00'))

/-- The bytes of a text before the first zero byte are those of the text before its first
U+0000. -/
theorem takeWhile_utf8 (s : String) : (utf8 s).takeWhile (· ≠ 0) = utf8 (beforeNul s) := by
  rw [utf8_eq_flatMap, utf8_eq_flatMap, beforeNul, String.toList_ofList]
  induction s.toList with
  | nil => rfl
  | cons c cs ih =>
    by_cases hc : c = '\x00'
    · subst hc
      rfl
    · have hbytes : ∀ b ∈ String.utf8EncodeChar c, decide (b ≠ 0) = true := by
        intro b hb
        apply decide_eq_true
        rintro rfl
        exact zero_notMem_utf8EncodeChar hc hb
      have hhead : (c :: cs).takeWhile (· ≠ '\x00') = c :: cs.takeWhile (· ≠ '\x00') :=
        List.takeWhile_cons_of_pos (decide_eq_true hc)
      rw [List.flatMap_cons, List.takeWhile_append_of_pos hbytes, ih, hhead, List.flatMap_cons]

/-- U+0000 is a zero byte. -/
theorem zero_mem_utf8 {s : String} (h : '\x00' ∈ s.toList) : 0 ∈ utf8 s := by
  rw [utf8_eq_flatMap]
  exact List.mem_flatMap.2 ⟨_, h, by decide⟩

/-- A text ends before its first zero byte exactly if it has no U+0000. -/
theorem takeWhile_utf8_eq_iff (s : String) :
    (utf8 s).takeWhile (· ≠ 0) = utf8 s ↔ '\x00' ∉ s.toList := by
  rw [List.takeWhile_eq_self_iff]
  constructor
  · intro h hmem
    have hzero := h 0 (zero_mem_utf8 hmem)
    simp at hzero
  · intro h b hb
    apply decide_eq_true
    rintro rfl
    exact zero_notMem_utf8 h hb

namespace Metadata

/-! ## Limits -/

/-- Where a limit is the only reason to reject a value, the value is rejected exactly if it
is over the limit. -/
theorem ite_error_eq_error_iff {α : Type} {large : Prop} [Decidable large]
    {failure reason : Failure} {entry : α} :
    (if large then Except.error failure else Except.ok entry) = .error reason ↔
      large ∧ reason = failure := by
  constructor
  · intro h
    split at h
    · next hlarge =>
      cases h
      exact ⟨hlarge, rfl⟩
    · cases h
  · rintro ⟨hlarge, rfl⟩
    exact if_pos hlarge

/-! ## Literals -/

/-- A code unit that is no surrogate is a character. -/
theorem decodeUtf16?_cons {u : Nat} (hu : u < 0xd800 ∨ 0xe000 ≤ u) (units : List Nat) :
    decodeUtf16? (u :: units) = (decodeUtf16? units).map (Char.ofNat u :: ·) := by
  cases units with
  | nil => simp [decodeUtf16?, hu]
  | cons v units => simp [decodeUtf16?, hu]

/-- The code units of a character are decoded to the character. -/
theorem decodeUtf16?_charUnits (c : Char) (units : List Nat) :
    decodeUtf16? ((charUnits c).map UInt16.toNat ++ units) =
      (decodeUtf16? units).map (c :: ·) := by
  have hvalid : c.toNat < 0xd800 ∨ 0xdfff < c.toNat ∧ c.toNat < 0x110000 := c.valid
  by_cases hc : c.toNat < 0x10000
  · have hunit : (UInt16.ofNat c.toNat).toNat = c.toNat := UInt16.toNat_ofNat_of_lt hc
    simp only [charUnits, hc, ↓reduceIte, List.map_cons, List.map_nil, hunit,
      List.cons_append, List.nil_append]
    rw [decodeUtf16?_cons (by omega), Char.ofNat_toNat]
  · have hhigh : (UInt16.ofNat (0xd800 + (c.toNat - 0x10000) / 0x400)).toNat =
        0xd800 + (c.toNat - 0x10000) / 0x400 := UInt16.toNat_ofNat_of_lt (by
      show _ < 65536
      omega)
    have hlow : (UInt16.ofNat (0xdc00 + (c.toNat - 0x10000) % 0x400)).toNat =
        0xdc00 + (c.toNat - 0x10000) % 0x400 := UInt16.toNat_ofNat_of_lt (by
      show _ < 65536
      omega)
    simp only [charUnits, hc, ↓reduceIte, List.map_cons, List.map_nil, hhigh, hlow,
      List.cons_append, List.nil_append, decodeUtf16?]
    rw [if_neg (by omega), if_pos (by omega)]
    have hjoin : 0x10000 + (0xd800 + (c.toNat - 0x10000) / 0x400 - 0xd800) * 0x400 +
        (0xdc00 + (c.toNat - 0x10000) % 0x400 - 0xdc00) = c.toNat := by
      omega
    rw [hjoin, Char.ofNat_toNat]

/-- The code units of a text are decoded to its characters. -/
theorem decodeUtf16?_utf16 (s : String) :
    decodeUtf16? ((utf16 s).map UInt16.toNat) = some s.toList := by
  rw [utf16]
  induction s.toList with
  | nil => rfl
  | cons c cs ih => rw [List.flatMap_cons, List.map_append, decodeUtf16?_charUnits, ih]; rfl

/-- A literal is rejected exactly if it has more than 63 code units. -/
theorem userStringEntry_eq_error_iff (s : String) (reason : Failure) :
    userStringEntry s = .error reason ↔
      63 < (utf16 s).length ∧ reason = .heapEntryTooLarge "#US" (utf16 s).length 63 := by
  rw [userStringEntry]
  exact ite_error_eq_error_iff

/-- Code units that have to be marked: the high byte is not zero, or the low byte is that of
some control characters, the apostrophe, the hyphen or the delete character. -/
def IsSpecial (unit : Nat) : Prop :=
  unit / 256 ≠ 0 ∨ (0x01 ≤ unit % 256 ∧ unit % 256 ≤ 0x08) ∨
    (0x0e ≤ unit % 256 ∧ unit % 256 ≤ 0x1f) ∨ unit % 256 = 0x27 ∨ unit % 256 = 0x2d ∨
      unit % 256 = 0x7f

theorem needsHandling_iff (u : UInt16) : needsHandling u = true ↔ IsSpecial u.toNat := by
  simp only [needsHandling, IsSpecial, Bool.or_eq_true, Bool.and_eq_true, decide_eq_true_eq,
    beq_iff_eq]
  omega

/-- The size of code units. -/
theorem length_flatMap_word16 (units : List UInt16) :
    (units.flatMap word16).length = 2 * units.length := by
  rw [length_flatMap_eq_total, funext length_word16, total_map_const, Nat.mul_comm]

/-- A literal is read back with its mark. -/
theorem literalPartsAt?_of_skip? {heap entry rest : Bytes} {offset : Nat} {s : String}
    (hentry : userStringEntry s = .ok entry) (h : skip? offset heap = some (entry ++ rest)) :
    literalPartsAt? heap offset = some ((utf16 s).map UInt16.toNat,
      if (utf16 s).any needsHandling then 1 else 0) := by
  rw [userStringEntry] at hentry
  split at hentry
  · cases hentry
  · next hle =>
    obtain rfl := Except.ok.inj hentry
    generalize hmark : (if (utf16 s).any needsHandling then 1 else 0 : UInt8) = mark at h
    have hlength : ((utf16 s).flatMap word16 ++ [mark]).length = (utf16 s).length * 2 + 1 := by
      rw [List.length_append, length_flatMap_word16, List.length_singleton, Nat.mul_comm]
    have hblob : blobAt? heap offset = some ((utf16 s).flatMap word16 ++ [mark]) := by
      rw [← hlength] at h
      refine blobAt?_of_skip? ?_ h
      have hmax : maxUserStringUnits = 0x3f := rfl
      rw [hlength, maxBlobLength]
      omega
    have hunits := readList?_flatMap UInt16.toNat (utf16 s) (fun u _ => readNumber?_word16 u) [mark]
    have hodd : ((utf16 s).length * 2 + 1) % 2 = 1 := by omega
    have hhalf : ((utf16 s).length * 2 + 1) / 2 = (utf16 s).length := by omega
    have hread : readNumber? 1 [mark] = some (mark.toNat, []) := by
      simp [readNumber?, ofLittleEndian]
    simp only [literalPartsAt?, hblob, hlength, hodd, hhalf, hunits, hread, guard, ↓reduceIte,
      Option.bind_eq_bind, Option.bind_some, Option.pure_def]
    rw [← hmark]
    split <;> rfl

/-- The mark of a literal says whether it has a special code unit. -/
theorem any_needsHandling_iff (s : String) :
    (utf16 s).any needsHandling = true ↔ ∃ u ∈ (utf16 s).map UInt16.toNat, IsSpecial u := by
  simp only [List.any_eq_true, List.mem_map, exists_exists_and_eq_and, needsHandling_iff]

/-! ## Binary values -/

/-- A binary value is rejected exactly if it has more than 127 bytes. -/
theorem blobEntry_eq_error_iff (value : Bytes) (reason : Failure) :
    blobEntry value = .error reason ↔
      127 < value.length ∧ reason = .heapEntryTooLarge "#Blob" value.length 127 := by
  rw [blobEntry]
  exact ite_error_eq_error_iff

/-- A binary value is read back from its entry. -/
theorem blobAt?_of_blobEntry {heap value entry rest : Bytes} {offset : Nat}
    (hentry : blobEntry value = .ok entry) (h : skip? offset heap = some (entry ++ rest)) :
    blobAt? heap offset = some value := by
  rw [blobEntry] at hentry
  split at hentry
  · cases hentry
  · next hle =>
    obtain rfl := Except.ok.inj hentry
    exact blobAt?_of_skip? (Nat.not_lt.1 hle) h

end Metadata

end QuillImage
