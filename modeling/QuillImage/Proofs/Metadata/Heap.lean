import Mathlib.Tactic
import QuillImage.Metadata.Heap
import QuillImage.Proofs.Bytes

/-!
# Reading heap entries

Readers of the entries of the four heaps, given the bytes of a heap and an offset
or a position in it. An entry stays where it is when more entries are inserted:
`exists_skip?_insertAll` says what stands at the offset of each of the entries of a
heap, and `size_insertAll` where the heap ends.
-/

namespace QuillImage

/-! ## UTF-8 -/

theorem utf8_eq_flatMap (s : String) : utf8 s = s.toList.flatMap String.utf8EncodeChar := by
  rw [utf8, String.toUTF8_eq_toByteArray, ← String.utf8Encode_toList]
  simp [List.utf8Encode]

/-- Only the character U+0000 has a zero byte. -/
theorem zero_notMem_utf8EncodeChar {c : Char} (hc : c ≠ '\x00') :
    (0 : UInt8) ∉ String.utf8EncodeChar c := by
  have hor : ∀ x k : UInt8, k ≠ 0 → 0 ≠ x ||| k := by
    intro x k hk h
    exact hk (UInt8.or_eq_zero_iff.1 h.symm).2
  rcases c.utf8Size_eq with h | h | h | h
  -- a character of one byte is that byte; in all others each byte has its high bit set
  · have hle : c.val.toNat ≤ 127 := UInt32.le_iff_toNat_le.1 (Char.utf8Size_eq_one_iff.1 h)
    have hpos : c.val.toNat ≠ 0 := fun h0 => hc (Char.ext (UInt32.toNat_inj.1 h0))
    rw [String.utf8EncodeChar_eq_singleton h, List.mem_singleton]
    intro h0
    have hbyte := congrArg UInt8.toNat h0
    simp only [UInt8.toNat_ofNat, UInt32.toNat_toUInt8] at hbyte
    omega
  · rw [String.utf8EncodeChar_eq_cons_cons h]
    simp [hor]
  · rw [String.utf8EncodeChar_eq_cons_cons_cons h]
    simp [hor]
  · rw [String.utf8EncodeChar_eq_cons_cons_cons_cons h]
    simp [hor]

/-- A text without U+0000 has no zero byte. -/
theorem zero_notMem_utf8 {s : String} (h : '\x00' ∉ s.toList) : 0 ∉ utf8 s := by
  rw [utf8_eq_flatMap]
  intro hmem
  obtain ⟨c, hc, hzero⟩ := List.mem_flatMap.1 hmem
  refine zero_notMem_utf8EncodeChar ?_ hzero
  rintro rfl
  exact h hc

namespace Metadata

/-! ## Readers -/

/-- The name at an offset, up to a zero byte. -/
def nameAt? (heap : Bytes) (offset : Nat) : Option Bytes := do
  let bs ← skip? offset heap
  let (name, _) ← readText? bs
  return name

/-- The binary value at an offset, after its length byte. -/
def blobAt? (heap : Bytes) (offset : Nat) : Option Bytes := do
  let bs ← skip? offset heap
  let (size, bs) ← readNumber? 1 bs
  guard (size < 0x80)
  let (blob, _) ← readBytes? size bs
  return blob

/-- The characters of UTF-16 code units. -/
def decodeUtf16? : List Nat → Option (List Char)
  | [] => some []
  | [u] => if u < 0xd800 ∨ 0xe000 ≤ u then some [Char.ofNat u] else none
  | u :: v :: rest =>
    if u < 0xd800 ∨ 0xe000 ≤ u then (decodeUtf16? (v :: rest)).map (Char.ofNat u :: ·)
    else if u < 0xdc00 ∧ 0xdc00 ≤ v ∧ v < 0xe000 then
      (decodeUtf16? rest).map (Char.ofNat (0x10000 + (u - 0xd800) * 0x400 + (v - 0xdc00)) :: ·)
    else none

/-- The code units and the mark of the literal at an offset. The length byte counts two
bytes for each unit, and one for the mark. -/
def literalPartsAt? (heap : Bytes) (offset : Nat) : Option (List Nat × Nat) := do
  let bs ← blobAt? heap offset
  guard (bs.length % 2 = 1)
  let (units, bs) ← readList? (readNumber? 2) (bs.length / 2) bs
  let (mark, _) ← readNumber? 1 bs
  return (units, mark)

/-- The characters of the literal at an offset. -/
def literalAt? (heap : Bytes) (offset : Nat) : Option (List Char) := do
  let (units, _) ← literalPartsAt? heap offset
  decodeUtf16? units

/-- The identifier at a position, counted from one. -/
def guidAt? (heap : Bytes) (index : Nat) : Option Bytes := do
  guard (index ≠ 0)
  let bs ← skip? (16 * (index - 1)) heap
  let (guid, _) ← readBytes? 16 bs
  return guid

section Entries

variable {heap rest : Bytes} {offset : Nat}

theorem nameAt?_of_skip? {s : String} (h : skip? offset heap = some (stringEntry s ++ rest)) :
    nameAt? heap offset = some ((utf8 s).takeWhile (· ≠ 0)) := by
  rw [stringEntry, List.append_assoc, List.singleton_append] at h
  obtain ⟨rest', hread⟩ := exists_readText?_append (utf8 s) rest
  simp [nameAt?, h, hread]

/-- A name without U+0000 is read back whole. -/
theorem nameAt?_of_skip?_of_notMem {s : String} (hs : '\x00' ∉ s.toList)
    (h : skip? offset heap = some (stringEntry s ++ rest)) :
    nameAt? heap offset = some (utf8 s) := by
  rw [stringEntry, List.append_assoc, List.singleton_append] at h
  simp [nameAt?, h, readText?_append (zero_notMem_utf8 hs)]

theorem blobAt?_of_skip? {blob : Bytes} (hblob : blob.length ≤ maxBlobLength)
    (h : skip? offset heap = some (UInt8.ofNat blob.length :: blob ++ rest)) :
    blobAt? heap offset = some blob := by
  have hlt : blob.length < 0x80 := Nat.lt_succ_of_le hblob
  have hread : readNumber? 1 (UInt8.ofNat blob.length :: (blob ++ rest)) =
      some (blob.length, blob ++ rest) := by
    refine readNumber?_littleEndian ?_ (blob ++ rest)
    omega
  rw [List.cons_append] at h
  simp [blobAt?, h, hread, hlt, readBytes?_append rfl]

theorem guidAt?_of_skip? {guid : Bytes} {index : Nat} (hguid : guid.length = 16)
    (h : skip? (16 * index) heap = some (guid ++ rest)) : guidAt? heap (index + 1) = some guid := by
  simp [guidAt?, h, readBytes?_append hguid]

end Entries

/-! ## Insertions -/

namespace Heap

/-- The heap with entries inserted one after the other. -/
def insertAll (h : Heap) (entries : List Bytes) : Heap :=
  entries.foldl (fun h entry => (h.insert entry).2) h

theorem insertAll_cons (h : Heap) (entry : Bytes) (entries : List Bytes) :
    h.insertAll (entry :: entries) = (h.insert entry).2.insertAll entries := rfl

theorem insertAll_append (h : Heap) (entries entries' : List Bytes) :
    h.insertAll (entries ++ entries') = (h.insertAll entries).insertAll entries' :=
  List.foldl_append

/-- An insertion appends the entry and fewer than four zero bytes. -/
theorem exists_bytes_insert (h : Heap) (entry : Bytes) :
    ∃ n < 4, (h.insert entry).2.bytes = h.bytes ++ entry ++ zeros n :=
  exists_padded_eq_append_zeros (by norm_num) (h.bytes ++ entry)

/-- Insertions leave what was there in its place, and append each entry with fewer than
four zero bytes. -/
theorem exists_bytes_insertAll (h : Heap) (entries : List Bytes) :
    ∃ pieces, List.Forall₂ (fun entry piece => ∃ n < 4, piece = entry ++ zeros n) entries pieces ∧
      (h.insertAll entries).bytes = h.bytes ++ pieces.flatten := by
  induction entries generalizing h with
  | nil => exact ⟨[], .nil, (List.append_nil _).symm⟩
  | cons entry entries ih =>
    obtain ⟨n, hn, hentry⟩ := h.exists_bytes_insert entry
    obtain ⟨pieces, hpieces, hbytes⟩ := ih (h.insert entry).2
    refine ⟨(entry ++ zeros n) :: pieces, .cons ⟨n, hn, rfl⟩ hpieces, ?_⟩
    rw [insertAll_cons, hbytes, hentry, List.flatten_cons, List.append_assoc, List.append_assoc,
      List.append_assoc]

/-- Each entry stands at the size that the heap has before it. -/
theorem exists_skip?_insertAll (h : Heap) {entries : List Bytes} {i : Nat} {entry : Bytes}
    (hi : entries[i]? = some entry) :
    ∃ rest, skip? (h.insertAll (entries.take i)).size (h.insertAll entries).bytes =
      some (entry ++ rest) := by
  obtain ⟨hlt, rfl⟩ := List.getElem?_eq_some_iff.1 hi
  have hsplit : h.insertAll entries =
      ((h.insertAll (entries.take i)).insert entries[i]).2.insertAll (entries.drop (i + 1)) := by
    rw [← insertAll_cons, ← List.drop_eq_getElem_cons hlt, ← insertAll_append,
      List.take_append_drop]
  obtain ⟨n, -, hentry⟩ := (h.insertAll (entries.take i)).exists_bytes_insert entries[i]
  obtain ⟨pieces, -, hbytes⟩ := exists_bytes_insertAll
    ((h.insertAll (entries.take i)).insert entries[i]).2 (entries.drop (i + 1))
  rw [hsplit, hbytes, hentry, List.append_assoc, List.append_assoc]
  exact ⟨_, skip?_append rfl _⟩

/-- Each entry stands at the word that names its offset, when the size of the heap fits
a word. -/
theorem exists_skip?_toNat_insertAll (h : Heap) {entries : List Bytes} {i : Nat} {entry : Bytes}
    (hi : entries[i]? = some entry) (hne : entry ≠ [])
    (hsize : (h.insertAll entries).size < 2 ^ 32) :
    ∃ rest, skip? (UInt32.ofNat (h.insertAll (entries.take i)).size).toNat
      (h.insertAll entries).bytes = some (entry ++ rest) := by
  obtain ⟨rest, hskip⟩ := exists_skip?_insertAll h hi
  have hlt := lt_length_of_skip? hskip (List.append_ne_nil_of_left_ne_nil hne rest)
  have hoffset : (UInt32.ofNat (h.insertAll (entries.take i)).size).toNat =
      (h.insertAll (entries.take i)).size := UInt32.toNat_ofNat_of_lt (hlt.trans hsize)
  rw [hoffset]
  exact ⟨rest, hskip⟩

/-- The size of a heap whose entries are padded. -/
theorem size_insertAll {h : Heap} (hh : h.size % 4 = 0) (entries : List Bytes) :
    (h.insertAll entries).size = h.size + total (entries.map fun e => alignUp e.length 4) := by
  induction entries generalizing h with
  | nil => rfl
  | cons entry entries ih =>
    have hsize : (h.insert entry).2.size = h.size + alignUp entry.length 4 := by
      rw [size, insert, length_padded (by norm_num), List.length_append]
      simp only [size] at hh ⊢
      simp only [alignUp]
      omega
    have hmod : (h.insert entry).2.size % 4 = 0 := by
      rw [hsize, alignUp]
      omega
    rw [insertAll_cons, ih hmod, hsize, List.map_cons, total, Nat.add_assoc]

end Heap

end Metadata

end QuillImage
