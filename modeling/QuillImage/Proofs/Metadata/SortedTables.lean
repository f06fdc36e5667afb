import Mathlib.Tactic
import QuillImage.Proofs.Metadata.Database
import QuillImage.Proofs.Metadata.StreamReader

/-!
# Tables that are said to be sorted

Fourteen tables have a key column, and the table stream has a mask of the tables whose
rows are in the order of their keys, so that a loader can search them. The mask is the
same in every stream: it has the bits of all fourteen tables. Rows stand in the stream
in the order in which they were inserted, whatever their keys.

Main statement: the mask tells the truth about exactly those tables whose rows were
inserted in the order of their keys (`isTruthful_iff_of_stream_eq_ok`). `SortedView` is
what a loader knows of it, read from the bytes alone.
-/

namespace QuillImage.Metadata

/-! ## Keys -/

/-- The name of the column by which a table is sorted, for the tables that are. -/
def Table.key? : Table → Option String
  | interfaceImpl => some "Class"
  | constant => some "Parent"
  | customAttribute => some "Parent"
  | fieldMarshal => some "Parent"
  | declSecurity => some "Parent"
  | classLayout => some "Parent"
  | fieldLayout => some "Field"
  | methodSemantics => some "Association"
  | methodImpl => some "Class"
  | implMap => some "MemberForwarded"
  | fieldRva => some "Field"
  | nestedClass => some "NestedClass"
  | genericParam => some "Owner"
  | genericParamConstraint => some "Owner"
  | _ => none

/-- The position of the key column. -/
def Table.keyPosition? (t : Table) : Option Nat :=
  t.key?.bind fun name => t.columns.findIdx? (·.name = name)

/-- The number that stands for a cell in the stream. -/
def Entry.number (e : Entry) : Nat := e.column.type.value e.cell

/-- The key among the numbers of a row. -/
def Table.keyOf? (t : Table) (numbers : List Nat) : Option Nat :=
  t.keyPosition?.bind fun i => numbers[i]?

/-- The keys of the rows of a table, in the order of the rows. -/
def Tables.keys (ts : Tables) (t : Table) : List Nat :=
  (ts.get t).toList.filterMap fun row => t.keyOf? (row.entries.map Entry.number)

/-! ## The view of a loader -/

/-- Reads numbers of the given widths. -/
def readNumbers? : List Nat → Bytes → Option (List Nat × Bytes)
  | [], bs => some ([], bs)
  | width :: widths, bs => do
    let (v, bs) ← readNumber? width bs
    let (vs, bs) ← readNumbers? widths bs
    return (v :: vs, bs)

/-- Reads the keys of each table of a list, by the row counts `n`. -/
def readKeys? (n : Table → Nat) : List Table → Bytes → Option (List (Table × List Nat) × Bytes)
  | [], bs => some ([], bs)
  | t :: ts, bs => do
    let (rows, bs) ← readList? (readNumbers? (t.columns.map (·.type.readWidth n))) (n t) bs
    let (rest, bs) ← readKeys? n ts bs
    return ((t, rows.filterMap t.keyOf?) :: rest, bs)

/-- The mask of the tables that are said to be sorted. -/
def readSortedMask? (bs : Bytes) : Option Nat := do
  let bs ← skip? 16 bs
  let (mask, _) ← readNumber? 8 bs
  return mask

/-- What a loader knows about the order of rows. -/
structure SortedView where
  /-- The mask of the tables that are said to be sorted. -/
  mask : Nat
  /-- The keys of each table in the order of its rows. -/
  keys : List (Table × List Nat)

/-- Reads the mask and the keys from a table stream. -/
def SortedView.read? (bs : Bytes) : Option SortedView := do
  let mask ← readSortedMask? bs
  let bs ← skip? 8 bs
  let (valid, bs) ← readNumber? 8 bs
  let bs ← skip? 8 bs
  let (counts, bs) ← readCounts? (maskBits valid) bs
  let (keys, _) ← readKeys? (countIn counts) Table.all bs
  return ⟨mask, keys⟩

/-- The rows of every table that is said to be sorted are in the order of their keys. -/
def SortedView.IsTruthful (view : SortedView) : Prop :=
  ∀ t keys, (t, keys) ∈ view.keys → view.mask.testBit t.number = true → keys.Pairwise (· ≤ ·)

/-! ## Key columns -/

theorem Table.mem_sorted_iff (t : Table) : t ∈ Table.sorted ↔ t.key?.isSome = true := by
  cases t <;> decide

/-- The bits of the mask are the numbers of the tables with a key column. -/
theorem Table.testBit_sortedMask_iff (k : Nat) :
    Table.sortedMask.testBit k = true ↔ ∃ t : Table, t.key?.isSome = true ∧ t.number = k := by
  simp only [Table.sortedMask, Table.testBit_mask_iff, Table.mem_sorted_iff]

/-- A key column has a place among the columns of its table, and holds a row reference. -/
theorem Table.exists_keyColumn {t : Table} (h : t.key?.isSome = true) :
    ∃ i column, t.keyPosition? = some i ∧ t.columns[i]? = some column ∧
      ((∃ target, column.type = .index target) ∨ ∃ kind, column.type = .coded kind) := by
  cases t <;> first | exact ⟨_, _, rfl, rfl, by simp⟩ | exact absurd h (by decide)

/-- A row has a cell in the key column of its table, which is a row reference. -/
theorem Table.exists_keyEntry {t : Table} (h : t.key?.isSome = true) (row : Row t) :
    ∃ i e, t.keyPosition? = some i ∧ row.entries[i]? = some e ∧
      ((∃ target, e.column.type = .index target) ∨ ∃ kind, e.column.type = .coded kind) := by
  obtain ⟨i, column, hposition, hcolumn, htype⟩ := Table.exists_keyColumn h
  rw [← row.map_column_entries, List.getElem?_map] at hcolumn
  obtain ⟨e, he, rfl⟩ := Option.map_eq_some_iff.1 hcolumn
  exact ⟨i, e, hposition, he, htype⟩

/-- Every row of a table with a key column has a key. -/
theorem Tables.length_keys (ts : Tables) {t : Table} (h : t.key?.isSome = true) :
    (ts.keys t).length = ts.rowCount t := by
  rw [Tables.keys, List.length_filterMap_eq_countP, List.countP_eq_length.2, Array.length_toList,
    Tables.rowCount]
  intro row _
  obtain ⟨i, e, hposition, he, _⟩ := Table.exists_keyEntry h row
  simp [Table.keyOf?, hposition, he]

/-! ## Reading the keys -/

/-- The numbers of a row, cut to the widths of their columns. -/
def Cells.stored (c : RowCounts) {cs : List Column} (cells : Cells cs) : List Nat :=
  cells.entries.map fun e => e.number % 256 ^ e.column.type.width c

/-- The numbers of a row are read back up to the end of its bytes. -/
theorem readNumbers?_encode (c : RowCounts) {cs : List Column} (cells : Cells cs) (rest : Bytes) :
    readNumbers? (cs.map fun column => column.type.readWidth c.count) (cells.encode c ++ rest) =
      some (cells.stored c, rest) := by
  induction cells with
  | nil => rfl
  | @cons column cs cell tail ih =>
    rw [List.map_cons, Cells.encode, List.append_assoc, readNumbers?, ColumnType.readWidth_eq_width,
      readNumber?_littleEndian_mod]
    simp [ih, Cells.stored, Cells.entries, Entry.number]

/-- A key is stored whole: it is a reference to a row that is there, and fits its column. -/
theorem Table.keyOf?_stored {c : RowCounts} {heaps : HeapSizes} {t : Table} {row : Row t}
    (h : ∀ e ∈ row.entries, e.Resolves c.count heaps) :
    t.keyOf? (row.stored c) = t.keyOf? (row.entries.map Entry.number) := by
  cases hkey : t.key? with
  | none => simp [Table.keyOf?, Table.keyPosition?, hkey]
  | some name =>
    obtain ⟨i, e, hposition, he, htype⟩ :=
      Table.exists_keyEntry (by rw [hkey]; rfl) row
    have hend : ¬ e.IsWideEnd c.count := by
      obtain ⟨⟨name, ty⟩, cell⟩ := e
      rcases htype with ⟨target, rfl⟩ | ⟨kind, rfl⟩ <;> exact id
    have hlt := ColumnType.value_lt e.column.name e.column.type e.cell
      (h e (List.mem_of_getElem? he)) hend
    simp [Table.keyOf?, hposition, Cells.stored, he, Entry.number, Nat.mod_eq_of_lt hlt]

/-- The keys of the tables are read back up to the end of the bytes of their rows. -/
theorem Tables.readKeys?_flatMap_encode {ts : Tables} {heaps : HeapSizes}
    (hres : ts.Resolves heaps) (us : List Table) (rest : Bytes) :
    readKeys? ts.counts.count us
        (us.flatMap (fun t => (ts.get t).toList.flatMap (Cells.encode ts.counts)) ++ rest) =
      some (us.map fun t => (t, ts.keys t), rest) := by
  have hcells := ts.forall_cellAt?_iff.1 hres
  rw [← ts.count_counts] at hcells
  induction us with
  | nil => rfl
  | cons t us ih =>
    have hcount : ts.counts.count t = (ts.get t).toList.length := by
      rw [ts.count_counts]
      rfl
    -- the numbers of the rows are read cut to their widths, which leaves the keys whole
    have hrows := readList?_flatMap (Cells.stored ts.counts) (ts.get t).toList
      (fun row _ => readNumbers?_encode ts.counts row)
      (us.flatMap (fun t => (ts.get t).toList.flatMap (Cells.encode ts.counts)) ++ rest)
    have hkeys : ((ts.get t).toList.map (Cells.stored ts.counts)).filterMap t.keyOf? =
        ts.keys t := by
      rw [List.filterMap_map]
      refine List.filterMap_congr fun row hrow => ?_
      exact Table.keyOf?_stored (hcells t row hrow)
    rw [List.flatMap_cons, List.append_assoc, readKeys?, hcount, hrows]
    simp [ih, hkeys]

/-- The mask of every stream is the same. -/
theorem Tables.readSortedMask?_append (ts : Tables) (rest : Bytes) :
    readSortedMask? (ts.streamHeader ++ rest) = some Table.sortedMask := by
  have hfront : (zeros 4 ++ ([2, 0, 0x07, 1] : Bytes) ++ littleEndian 8 ts.validMask).length =
      16 := by simp
  have hmask : Table.sortedMask < 256 ^ 8 := Table.mask_lt Table.sorted
  rw [readSortedMask?, Tables.streamHeader, List.append_assoc, skip?_append hfront]
  simp [readNumber?_littleEndian hmask]

/-- A loader sees the constant mask, and the keys in the order in which the rows were
inserted. -/
theorem Tables.read?_sortedView {ts : Tables} {heaps : HeapSizes} (hres : ts.Resolves heaps)
    (hrows : ∀ t, ts.rowCount t < 2 ^ 32) :
    SortedView.read? (ts.streamHeader ++ (ts.streamCounts ++ ts.streamRows)) =
      some ⟨Table.sortedMask, Table.all.map fun t => (t, ts.keys t)⟩ := by
  have hkeys := Tables.readKeys?_flatMap_encode hres Table.all []
  rw [List.append_nil] at hkeys
  have hversions : (zeros 4 ++ ([2, 0, 0x07, 1] : Bytes)).length = 8 := rfl
  have hvalid : ts.validMask < 256 ^ 8 := Table.mask_lt ts.nonempty
  have hlayout : ts.streamHeader ++ (ts.streamCounts ++ ts.streamRows) =
      (zeros 4 ++ [2, 0, 0x07, 1]) ++ (littleEndian 8 ts.validMask ++
        (littleEndian 8 Table.sortedMask ++ (ts.streamCounts ++ ts.streamRows))) := by
    simp only [Tables.streamHeader, List.append_assoc]
  rw [SortedView.read?, ts.readSortedMask?_append, hlayout, Option.bind_eq_bind,
    Option.bind_some, skip?_append hversions]
  simp only [Option.bind_eq_bind, Option.bind_some, readNumber?_littleEndian hvalid,
    skip?_append (length_littleEndian 8 _), ts.maskBits_validMask, Tables.streamCounts,
    readCounts?_flatMap hrows, ts.countIn_nonempty, Tables.streamRows, hkeys]
  rfl

/-- The constant mask is true of keys exactly when every table with a key column has its
keys in order. -/
theorem SortedView.isTruthful_iff (keys : Table → List Nat) :
    SortedView.IsTruthful ⟨Table.sortedMask, Table.all.map fun t => (t, keys t)⟩ ↔
      ∀ t ∈ Table.sorted, (keys t).Pairwise (· ≤ ·) := by
  constructor
  · intro h t ht
    refine h t (keys t) (List.mem_map.2 ⟨t, Table.mem_all t, rfl⟩) ?_
    exact (Table.testBit_sortedMask_iff t.number).2 ⟨t, t.mem_sorted_iff.1 ht, rfl⟩
  · intro h t ks hmem hbit
    obtain ⟨u, -, heq⟩ := List.mem_map.1 hmem
    obtain ⟨rfl, rfl⟩ := Prod.mk.inj heq
    obtain ⟨w, hw, hnumber⟩ := (Table.testBit_sortedMask_iff u.number).1 hbit
    obtain rfl : w = u := Table.eq_of_number_eq hnumber
    exact h w (w.mem_sorted_iff.2 hw)

/-- Every stream says of all tables with a key column that they are sorted, and shows
their rows as they were inserted, each with its key. What it says is true exactly when
the rows of each of these tables were inserted in the order of their keys. -/
theorem Tables.isTruthful_iff_of_stream_eq_ok {ts : Tables} {heaps : HeapSizes} {bytes : Bytes}
    (hstream : ts.stream heaps = .ok bytes) :
    readSortedMask? bytes = some Table.sortedMask ∧
      (∀ k, Table.sortedMask.testBit k = true ↔
        ∃ t : Table, t.key?.isSome = true ∧ t.number = k) ∧
      (∀ t ∈ Table.sorted, (ts.keys t).length = ts.rowCount t) ∧
      ((∀ t, ts.rowCount t < 2 ^ 32) → ∃ view, SortedView.read? bytes = some view ∧
        view.mask = Table.sortedMask ∧ view.keys = Table.all.map (fun t => (t, ts.keys t)) ∧
        (view.IsTruthful ↔ ∀ t ∈ Table.sorted, (ts.keys t).Pairwise (· ≤ ·))) := by
  obtain ⟨hres, rfl⟩ := (ts.stream_eq_ok_iff heaps bytes).1 hstream
  rw [List.append_assoc]
  refine ⟨ts.readSortedMask?_append _, Table.testBit_sortedMask_iff, fun t ht => ?_,
    fun hrows => ?_⟩
  · exact ts.length_keys (t.mem_sorted_iff.1 ht)
  · exact ⟨_, Tables.read?_sortedView hres hrows, rfl, rfl, SortedView.isTruthful_iff ts.keys⟩

/-- Three types, of which the first encloses two, in the order in which they are given. -/
def Tables.nestedTypes (first second : UInt32) : Tables :=
  let plain : Row .typeDef := Row.typeDef 0 1 1
  let nested : UInt32 → Row .nestedClass := fun row => .cons row <| .cons (1 : UInt32) .nil
  let ts := (((Tables.empty.push plain).2.push plain).2.push plain).2
  ((ts.push (nested first)).2.push (nested second)).2

theorem Tables.rowCount_nestedTypes_lt (first second : UInt32) (t : Table) :
    (nestedTypes first second).rowCount t < 2 ^ 32 := by
  have hle : (nestedTypes first second).rowCount t ≤ 0 + 1 + 1 + 1 + 1 + 1 := by
    iterate 5 refine (rowCount_push_le _ _).trans (Nat.succ_le_succ ?_)
    rw [rowCount, get_empty, Array.size_empty]
  omega

/-- Nested types that were inserted in their order are sorted as the stream says. -/
theorem Tables.isTruthful_nestedTypes :
    ∃ bytes view, (nestedTypes 2 3).stream ⟨1, 1, 0⟩ = .ok bytes ∧
      SortedView.read? bytes = some view ∧ view.mask = Table.sortedMask ∧ view.IsTruthful := by
  have hstream : (nestedTypes 2 3).stream ⟨1, 1, 0⟩ = .ok _ := rfl
  obtain ⟨view, hread, hmask, -, htruthful⟩ :=
    (isTruthful_iff_of_stream_eq_ok hstream).2.2.2 (rowCount_nestedTypes_lt 2 3)
  exact ⟨_, view, hstream, hread, hmask, htruthful.2 (by decide)⟩

/-- Nested types that were inserted in another order are said to be sorted all the
same. -/
theorem Tables.not_isTruthful_nestedTypes :
    ∃ bytes view, (nestedTypes 3 2).stream ⟨1, 1, 0⟩ = .ok bytes ∧
      SortedView.read? bytes = some view ∧
      view.mask.testBit Table.nestedClass.number = true ∧
      (Table.nestedClass, [3, 2]) ∈ view.keys ∧ ¬ view.IsTruthful := by
  have hstream : (nestedTypes 3 2).stream ⟨1, 1, 0⟩ = .ok _ := rfl
  obtain ⟨hres, hbytes⟩ := (stream_eq_ok_iff _ _ _).1 hstream
  have hread := read?_sortedView hres (rowCount_nestedTypes_lt 3 2)
  rw [← List.append_assoc, ← hbytes] at hread
  refine ⟨_, _, hstream, hread, by decide, ?_, ?_⟩
  · exact List.mem_map.2 ⟨.nestedClass, Table.mem_all _, rfl⟩
  · rw [SortedView.isTruthful_iff]
    intro hsorted
    exact absurd (hsorted .nestedClass (by decide)) (by decide)

end QuillImage.Metadata
