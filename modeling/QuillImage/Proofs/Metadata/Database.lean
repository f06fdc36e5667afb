import Mathlib.Tactic
import QuillImage.Metadata.Layout
import QuillImage.Proofs.Metadata.StreamReader

/-!
# Filling a database

What an insertion gives back and leaves behind: the rows of each table after a row
was appended (`Tables.get_push_self`, `Tables.get_push_of_ne`) and replaced
(`Tables.setRow?_push`), and each insertion into a database whose parts are known. The
size of the table stream depends on the row counts only (`Tables.length_of_stream_eq_ok`).
-/

namespace QuillImage.Metadata

/-! ## Rows -/

namespace RowStore

variable {ts : List Table} (s : RowStore ts) {t : Table} {f g : Array (Row t) → Array (Row t)}

/-- Only what is done to the rows that are there counts. -/
theorem modify_congr (h : f (s.get t) = g (s.get t)) : s.modify t f = s.modify t g := by
  induction s with
  | nil => rfl
  | @cons u us rows rest ih =>
    by_cases hu : u = t
    · subst hu
      simp only [get, ↓reduceDIte] at h
      simp only [modify, ↓reduceDIte, h]
    · simp only [get, hu, ↓reduceDIte] at h
      simp only [modify, hu, ↓reduceDIte, ih h]

theorem modify_modify : (s.modify t f).modify t g = s.modify t (g ∘ f) := by
  induction s with
  | nil => rfl
  | @cons u us rows rest ih =>
    by_cases hu : u = t
    · subst hu
      simp only [modify, ↓reduceDIte, Function.comp_apply]
    · simp only [modify, hu, ↓reduceDIte, ih]

end RowStore

namespace Tables

variable (ts : Tables) {t u : Table}

theorem get_empty (t : Table) : Tables.empty.get t = #[] := by
  have h : ∀ us, (RowStore.empty us).get t = #[] := by
    intro us
    induction us with
    | nil => rfl
    | cons u us ih =>
      by_cases hu : u = t
      · subst hu
        exact RowStore.get_cons_self _ _
      · rw [RowStore.empty, RowStore.get_cons_of_ne hu, ih]
  exact h Table.all

theorem get_push_self (row : Row t) : (ts.push row).2.get t = (ts.get t).push row :=
  RowStore.get_modify_self ts (Table.mem_all t) _

theorem get_push_of_ne (h : u ≠ t) (row : Row t) : (ts.push row).2.get u = ts.get u :=
  RowStore.get_modify_of_ne ts h _

/-- A row is appended one past the last position. -/
theorem push_fst (row : Row t) : (ts.push row).1 = (ts.get t).size + 1 := by
  have h : (ts.push row).1 = ((ts.push row).2.get t).size := rfl
  rw [h, get_push_self, Array.size_push]

/-- A row that was appended and is replaced might as well have been appended as it is at the
end. -/
theorem setRow?_push (row row' : Row t) :
    (ts.push row).2.setRow? ((ts.get t).size + 1) row' = some (ts.push row').2 := by
  have hrow : (ts.push row).2.row? t ((ts.get t).size + 1) = some row := by
    simp [row?, get_push_self]
  rw [setRow?, hrow, Option.map_some, push, push, RowStore.modify_modify]
  refine congrArg some (RowStore.modify_congr ts (Array.toList_inj.1 ?_))
  simp [← Array.length_toList]

theorem rowCount_push_le (row : Row t) : (ts.push row).2.rowCount u ≤ ts.rowCount u + 1 := by
  by_cases h : u = t
  · subst h
    simp [rowCount, get_push_self]
  · simp [rowCount, get_push_of_ne ts h]

/-! ## The size of the table stream -/

/-- The size of a table stream by the row counts `n`. -/
def streamSize (n : Table → Nat) : Nat :=
  24 + 4 * (Table.all.filter fun t => n t > 0).length +
    total (Table.all.map fun t => n t * total (t.columns.map fun c => c.type.readWidth n))

end Tables

theorem Cells.length_encode (c : RowCounts) {cs : List Column} (cells : Cells cs) :
    (cells.encode c).length = total (cs.map fun column => column.type.readWidth c.count) := by
  induction cells with
  | nil => rfl
  | cons cell rest ih =>
    rw [Cells.encode, List.length_append, length_littleEndian, ih, List.map_cons, total,
      ColumnType.readWidth_eq_width]

/-- The size of a table stream follows from the row counts. -/
theorem Tables.length_of_stream_eq_ok {ts : Tables} {heaps : HeapSizes} {bytes : Bytes}
    (h : ts.stream heaps = .ok bytes) : bytes.length = Tables.streamSize ts.rowCount := by
  obtain ⟨-, rfl⟩ := (ts.stream_eq_ok_iff heaps bytes).1 h
  have hheader : ts.streamHeader.length = 24 := by
    simp only [streamHeader, List.length_append, length_littleEndian, length_zeros,
      List.length_cons, List.length_nil]
  have hcounts : ts.streamCounts.length = 4 * ts.nonempty.length := by
    simp only [streamCounts, length_flatMap_eq_total, length_littleEndian, total_map_const]
    ring
  have hrows : ts.streamRows.length = total (Table.all.map fun t =>
      ts.rowCount t * total (t.columns.map fun c => c.type.readWidth ts.rowCount)) := by
    simp only [streamRows, length_flatMap_eq_total, Cells.length_encode, total_map_const,
      count_counts, rowCount, Array.length_toList]
  rw [List.length_append, List.length_append, hheader, hcounts, hrows]
  rfl

/-! ## The sizes of heaps -/

/-- The sizes that the rows are checked against are those of the heaps, as long as these fit
words. -/
theorem Database.heapSizes_of_lt {db : Database} (hstrings : db.heaps.strings.size < 2 ^ 32)
    (hblobs : db.heaps.blobs.size < 2 ^ 32) (hguids : db.heaps.guids.size < 2 ^ 32) :
    db.heapSizes =
      ⟨db.heaps.strings.size, db.heaps.blobs.size, db.heaps.guids.size / 16⟩ := by
  have hcount : db.heaps.guids.guidCount.toNat = db.heaps.guids.size / 16 := by
    rw [Heap.guidCount, UInt32.toNat_div, Heap.wordSize, UInt32.toNat_ofNat_of_lt' hguids]
    rfl
  rw [heapSizes, hcount, Heap.wordSize, Heap.wordSize, UInt32.toNat_ofNat_of_lt' hstrings,
    UInt32.toNat_ofNat_of_lt' hblobs]

/-! ## Insertions -/

namespace Database

variable (version : String) (strings userStrings blobs guids : Heap) (tables : Tables)

theorem addString_mk (s : String) :
    addString ⟨version, ⟨strings, userStrings, blobs, guids⟩, tables⟩ s =
      (UInt32.ofNat strings.size,
        ⟨version, ⟨(strings.insert (stringEntry s)).2, userStrings, blobs, guids⟩, tables⟩) :=
  rfl

theorem addUserString_mk {s : String} {entry : Bytes} (h : userStringEntry s = .ok entry) :
    addUserString ⟨version, ⟨strings, userStrings, blobs, guids⟩, tables⟩ s =
      .ok (0x70000000 ||| UInt32.ofNat userStrings.size,
        ⟨version, ⟨strings, (userStrings.insert entry).2, blobs, guids⟩, tables⟩) := by
  rw [addUserString, Heap.insertUserString, h]
  rfl

theorem addBlob_mk {blob entry : Bytes} (h : blobEntry blob = .ok entry) :
    addBlob ⟨version, ⟨strings, userStrings, blobs, guids⟩, tables⟩ blob =
      .ok (UInt32.ofNat blobs.size,
        ⟨version, ⟨strings, userStrings, (blobs.insert entry).2, guids⟩, tables⟩) := by
  rw [addBlob, Heap.insertBlob, h]
  rfl

theorem addGuid_mk (guid : Bytes) :
    addGuid ⟨version, ⟨strings, userStrings, blobs, guids⟩, tables⟩ guid =
      (UInt32.ofNat guids.size / 16 + 1,
        ⟨version, ⟨strings, userStrings, blobs, (guids.insert guid).2⟩, tables⟩) :=
  rfl

variable (heaps : Heaps) {t : Table} (row : Row t)

theorem addRow_mk :
    addRow row ⟨version, heaps, tables⟩ =
      (UInt32.ofNat ((tables.get t).size + 1), ⟨version, heaps, (tables.push row).2⟩) := by
  rw [← Tables.push_fst tables row]
  rfl

theorem addRowToken_mk :
    addRowToken row ⟨version, heaps, tables⟩ =
      (t.token (UInt32.ofNat ((tables.get t).size + 1)),
        ⟨version, heaps, (tables.push row).2⟩) := by
  rw [addRowToken, addRow_mk]

end Database

end QuillImage.Metadata
