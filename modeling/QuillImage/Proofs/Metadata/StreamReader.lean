import Mathlib.Data.List.ReduceOption
import Mathlib.Data.List.Sort
import Mathlib.Tactic
import QuillImage.Proofs.Bytes
import QuillImage.Proofs.Metadata.CodedIndex
import QuillImage.Proofs.Metadata.Validity

/-!
# Reading a table stream

A reader of the table stream that knows nothing but the bytes. It takes the mask
of the tables that have rows, reads one row count for each of its bits, derives
the width of every column from these counts, and then reads the rows table by
table.

Main statement: `Tables.readStream?` gives back the tables of every stream that
`Tables.stream` writes, and reads it to its end (`readStream?_of_stream_eq_ok`).
Rows beyond `2 ^ 27` do not fit the coded index with the widest tag, and a list
column that ends a table of 65535 rows does not fit its two bytes; both are
excluded.
-/

namespace QuillImage.Metadata

/-! ## The reader -/

/-- The places of the bits of a 64-bit mask, in ascending order. -/
def maskBits (mask : Nat) : List Nat := (List.range 64).filter mask.testBit

/-- Reads one row count for each of the given table numbers. -/
def readCounts? : List Nat → Bytes → Option (List (Nat × Nat) × Bytes)
  | [], bs => some ([], bs)
  | number :: numbers, bs => do
    let (count, bs) ← readNumber? 4 bs
    let (counts, bs) ← readCounts? numbers bs
    return ((number, count) :: counts, bs)

/-- The row count of a table. Tables that are not listed have no rows. -/
def countIn (counts : List (Nat × Nat)) (t : Table) : Nat :=
  (counts.lookup t.number).getD 0

/-- The width of a column by the row counts `n`. -/
def ColumnType.readWidth (n : Table → Nat) : ColumnType → Nat
  | byte | padding => 1
  | word => 2
  | dword | lateBound => 4
  | string | blob | guid => 4
  | index target | list target => if n target < 2 ^ 16 then 2 else 4
  | coded k | optionalCoded k =>
    if ∀ t ∈ k.candidates.reduceOption, n t < 2 ^ (16 - k.tagBits) then 2 else 4

/-- The cell that a number stands for. A column that may be without an index is so
when the number is zero. -/
def ColumnType.ofNumber? : (ty : ColumnType) → Nat → Option ty.Cell
  | byte, v => some (UInt8.ofNat v)
  | word, v => some (UInt16.ofNat v)
  | padding, _ => some ()
  | lateBound, v => some (some (UInt32.ofNat v))
  | dword, v | string, v | blob, v | guid, v | index _, v | list _, v => some (UInt32.ofNat v)
  | coded k, v => CodedIndex.decode? k (UInt32.ofNat v)
  | optionalCoded k, v =>
    if v = 0 then some none else (CodedIndex.decode? k (UInt32.ofNat v)).map some

/-- Reads the cells of a list of columns. -/
def Cells.read? (n : Table → Nat) : (cs : List Column) → Bytes → Option (Cells cs × Bytes)
  | [], bs => some (.nil, bs)
  | column :: cs, bs => do
    let (v, bs) ← readNumber? (column.type.readWidth n) bs
    let cell ← column.type.ofNumber? v
    let (rest, bs) ← Cells.read? n cs bs
    return (.cons cell rest, bs)

/-- Reads the rows of a list of tables. -/
def RowStore.read? (n : Table → Nat) : (ts : List Table) → Bytes → Option (RowStore ts × Bytes)
  | [], bs => some (.nil, bs)
  | t :: ts, bs => do
    let (rows, bs) ← readList? (Cells.read? n t.columns) (n t) bs
    let (rest, bs) ← RowStore.read? n ts bs
    return (.cons rows.toArray rest, bs)

/-- Reads a table stream, and gives back the tables with the bytes after them. The
versions and the mask of sorted tables are left out. -/
def Tables.readStream? (bs : Bytes) : Option (Tables × Bytes) := do
  let bs ← skip? 8 bs
  let (valid, bs) ← readNumber? 8 bs
  let bs ← skip? 8 bs
  let (counts, bs) ← readCounts? (maskBits valid) bs
  RowStore.read? (countIn counts) Table.all bs

/-- A list cell that stands one past the end of a table of 65535 rows. -/
def Entry.IsWideEnd (e : Entry) (n : Table → Nat) : Prop :=
  match e with
  | ⟨⟨_, .list target⟩, v⟩ => n target = 65535 ∧ v.toNat = 65536
  | _ => False

/-! ## One cell -/

section Cell

variable {c : RowCounts} {heaps : HeapSizes}

/-- The width that a reader derives is the one that was written. -/
theorem ColumnType.readWidth_eq_width (c : RowCounts) (ty : ColumnType) :
    ty.readWidth c.count = ty.width c := by
  cases ty with
  | coded k | optionalCoded k =>
    refine if_congr ?_ rfl rfl
    simp only [List.reduceOption, List.all_eq_true, decide_eq_true_eq, Nat.pow_eq]
  | _ => rfl

/-- Row references take four bytes unless all of them fit two. -/
theorem codedWidth_eq_two_or_four (c : RowCounts) (k : CodedKind) :
    (codedWidth c k = 2 ∧ ∀ t, some t ∈ k.candidates → c.count t < 2 ^ (16 - k.tagBits)) ∨
      codedWidth c k = 4 := by
  by_cases h : (k.candidates.filterMap id).all fun t => c.count t < Nat.pow 2 (16 - k.tagBits)
  · refine Or.inl ⟨if_pos h, fun t ht => ?_⟩
    have hmem : t ∈ k.candidates.filterMap id := List.mem_filterMap.2 ⟨some t, ht, rfl⟩
    simpa using List.all_eq_true.1 h t hmem
  · exact Or.inr (if_neg h)

/-- The value of a row reference fits the width of its column. -/
theorem CodedIndex.encode_lt {k : CodedKind} (x : CodedIndex k) (hres : x.Resolves c.count) :
    x.encode.toNat < 256 ^ codedWidth c k := by
  rcases codedWidth_eq_two_or_four c k with ⟨hwidth, hcounts⟩ | hwidth
  · have hrow : x.row.toNat < 2 ^ (16 - k.tagBits) :=
      lt_of_le_of_lt hres.2 (hcounts x.table x.isCandidate)
    have hbits := k.tagBits_le
    have hroom : x.row.toNat < 2 ^ (32 - k.tagBits) :=
      lt_of_lt_of_le hrow (Nat.pow_le_pow_right (by norm_num) (by omega))
    have hvalue := x.row_mul_add_tag_lt hrow
    rw [← pow_add, Nat.sub_add_cancel (by omega)] at hvalue
    rw [hwidth, x.toNat_encode hroom]
    exact hvalue
  · rw [hwidth]
    exact x.encode.toNat_lt

/-- The number of a cell that leads to something fits the width of its column,
unless it ends a list just past two bytes. -/
theorem ColumnType.value_lt (name : String) (ty : ColumnType) (cell : ty.Cell)
    (hres : ty.Resolves c.count heaps cell)
    (hend : ¬ (Entry.mk ⟨name, ty⟩ cell).IsWideEnd c.count) :
    ty.value cell < 256 ^ ty.width c := by
  cases ty with
  | byte => exact UInt8.toNat_lt cell
  | word => exact UInt16.toNat_lt cell
  | dword | string | blob | guid => exact UInt32.toNat_lt cell
  | padding => show 0 < 256 ^ 1; norm_num
  | lateBound => exact UInt32.toNat_lt (cell.getD 0)
  | index target =>
    obtain ⟨-, hle⟩ := hres
    simp only [ColumnType.value, ColumnType.width, indexWidth]
    split
    · omega
    · exact UInt32.toNat_lt cell
  | list target =>
    obtain ⟨-, hle⟩ := hres
    simp only [Entry.IsWideEnd, not_and] at hend
    simp only [ColumnType.value, ColumnType.width, indexWidth]
    split
    · omega
    · exact UInt32.toNat_lt cell
  | coded k => exact CodedIndex.encode_lt cell hres
  | optionalCoded k =>
    cases cell with
    | none => exact Nat.pow_pos (by norm_num)
    | some x => exact x.encode_lt (hres x rfl)

/-- A row of a small table leaves room for every tag. -/
theorem CodedIndex.row_lt (hcounts : ∀ t, c.count t < 2 ^ 27) {k : CodedKind}
    (x : CodedIndex k) (hres : x.Resolves c.count) : x.row.toNat < 2 ^ (32 - k.tagBits) := by
  have hbits := k.tagBits_le
  calc x.row.toNat ≤ c.count x.table := hres.2
    _ < 2 ^ 27 := hcounts x.table
    _ ≤ 2 ^ (32 - k.tagBits) := Nat.pow_le_pow_right (by norm_num) (by omega)

/-- The number of a cell leads back to the cell. -/
theorem ColumnType.ofNumber?_value (hcounts : ∀ t, c.count t < 2 ^ 27) (ty : ColumnType)
    (cell : ty.Cell) (hres : ty.Resolves c.count heaps cell) :
    ty.ofNumber? (ty.value cell) = some cell := by
  cases ty with
  | byte | word | dword | padding | string | blob | guid | index target | list target =>
    simp [ColumnType.ofNumber?, ColumnType.value]
  | lateBound =>
    obtain ⟨w, rfl⟩ := hres
    simp [ColumnType.ofNumber?, ColumnType.value]
  | coded k =>
    simp only [ColumnType.ofNumber?, ColumnType.value, UInt32.ofNat_toNat]
    exact cell.decode?_encode (cell.row_lt hcounts hres)
  | optionalCoded k =>
    cases cell with
    | none => rfl
    | some x =>
      have hx : x.Resolves c.count := hres x rfl
      have hrow := x.row_lt hcounts hx
      have hne := x.encode_ne_zero hrow hx.1
      simp [ColumnType.ofNumber?, ColumnType.value, hne, x.decode?_encode hrow]

end Cell

/-! ## Rows and tables -/

/-- A cell that leads to something and whose number fits its column. -/
def Entry.Readable (e : Entry) (n : Table → Nat) (heaps : HeapSizes) : Prop :=
  e.Resolves n heaps ∧ ¬ e.IsWideEnd n

section Rows

variable {c : RowCounts} {heaps : HeapSizes}

/-- A row is read back up to the end of its bytes. -/
theorem Cells.read?_encode (hcounts : ∀ t, c.count t < 2 ^ 27) {cs : List Column}
    (cells : Cells cs) (h : ∀ e ∈ cells.entries, e.Readable c.count heaps) (rest : Bytes) :
    Cells.read? c.count cs (cells.encode c ++ rest) = some (cells, rest) := by
  induction cells with
  | nil => rfl
  | @cons column cs cell tail ih =>
    obtain ⟨hres, hend⟩ := h ⟨column, cell⟩ (by simp [Cells.entries])
    have htail := ih fun e he => h e (by simp [Cells.entries, he])
    have hvalue := ColumnType.value_lt column.name column.type cell hres hend
    have hcell := ColumnType.ofNumber?_value hcounts column.type cell hres
    rw [Cells.encode, List.append_assoc, Cells.read?, ColumnType.readWidth_eq_width,
      readNumber?_littleEndian hvalue]
    simp [hcell, htail]

/-- The rows of the first table. -/
theorem RowStore.get_cons_self {t : Table} {us : List Table} (rows : Array (Row t))
    (s : RowStore us) : (RowStore.cons rows s).get t = rows := by
  simp [RowStore.get]

/-- The rows of a later table. -/
theorem RowStore.get_cons_of_ne {t u : Table} {us : List Table} (h : t ≠ u)
    (rows : Array (Row t)) (s : RowStore us) : (RowStore.cons rows s).get u = s.get u := by
  simp [RowStore.get, h]

/-- The rows of all tables are read back up to the end of their bytes. -/
theorem RowStore.read?_flatMap_encode (hcounts : ∀ t, c.count t < 2 ^ 27) {us : List Table}
    (s : RowStore us) (hnodup : us.Nodup) (hsize : ∀ t ∈ us, c.count t = (s.get t).size)
    (h : ∀ t ∈ us, ∀ row ∈ (s.get t).toList, ∀ e ∈ row.entries, e.Readable c.count heaps)
    (rest : Bytes) :
    RowStore.read? c.count us
        (us.flatMap (fun t => (s.get t).toList.flatMap (Cells.encode c)) ++ rest) =
      some (s, rest) := by
  induction s with
  | nil => rfl
  | @cons t us rows s ih =>
    obtain ⟨hnotin, hnodup'⟩ := List.nodup_cons.1 hnodup
    -- No later table is the first one, so that all of them are found in the rest.
    have hget : ∀ u ∈ us, (RowStore.cons rows s).get u = s.get u := by
      intro u hu
      have hne : t ≠ u := by
        rintro rfl
        exact hnotin hu
      exact RowStore.get_cons_of_ne hne rows s
    have hfirst : c.count t = rows.toList.length := by
      have := hsize t List.mem_cons_self
      rwa [RowStore.get_cons_self] at this
    have hrows := readList?_flatMap id rows.toList (fun row hrow =>
        Cells.read?_encode hcounts row (h t List.mem_cons_self row (by
          rwa [RowStore.get_cons_self])))
      (us.flatMap (fun u => (s.get u).toList.flatMap (Cells.encode c)) ++ rest)
    rw [List.map_id] at hrows
    have hrest := ih hnodup'
      (fun u hu => by rw [← hget u hu]; exact hsize u (List.mem_cons_of_mem _ hu))
      (fun u hu => by rw [← hget u hu]; exact h u (List.mem_cons_of_mem _ hu))
    have hflat : us.flatMap (fun u => ((RowStore.cons rows s).get u).toList.flatMap
          (Cells.encode c)) = us.flatMap fun u => (s.get u).toList.flatMap (Cells.encode c) :=
      List.flatMap_congr fun u hu => by rw [hget u hu]
    rw [List.flatMap_cons, List.append_assoc, RowStore.get_cons_self, hflat, RowStore.read?,
      hfirst, hrows]
    simp [hrest]

end Rows

/-! ## Masks and row counts -/

/-- The bits of a mask are the numbers of its tables. -/
theorem Table.testBit_mask_iff (us : List Table) (k : Nat) :
    (Table.mask us).testBit k = true ↔ ∃ t ∈ us, t.number = k := by
  -- The fold starts from any mask, whose bits stay.
  have hfold : ∀ m : Nat, (us.foldl (fun m t => m ||| 1 <<< t.number) m).testBit k = true ↔
      m.testBit k = true ∨ ∃ t ∈ us, t.number = k := by
    induction us with
    | nil => simp
    | cons t us ih =>
      intro m
      rw [List.foldl_cons, ih, Nat.testBit_or, Nat.one_shiftLeft, Nat.testBit_two_pow]
      simp [or_assoc]
  simpa [Table.mask] using hfold 0

/-- A mask of tables fits a 64-bit word. -/
theorem Table.mask_lt (us : List Table) : Table.mask us < 256 ^ 8 := by
  refine Nat.lt_pow_two_of_testBit (n := 64) _ fun k hk => ?_
  refine Bool.eq_false_iff.2 fun hbit => ?_
  obtain ⟨t, -, rfl⟩ := (Table.testBit_mask_iff us k).1 hbit
  exact absurd t.number_lt (by omega)

/-- The bits of the mask of the tables that have rows, in ascending order, are the
numbers of these tables. -/
theorem Tables.maskBits_validMask (ts : Tables) :
    maskBits ts.validMask = ts.nonempty.map Table.number := by
  have hbits : (maskBits ts.validMask).Pairwise (· < ·) :=
    List.pairwise_lt_range.filter _
  have hnumbers : (ts.nonempty.map Table.number).Pairwise (· < ·) :=
    List.pairwise_map.2 (Table.pairwise_number_all.filter _)
  refine hbits.eq_of_mem_iff hnumbers fun k => ?_
  rw [maskBits, List.mem_filter, List.mem_range, List.mem_map, Tables.validMask,
    Table.testBit_mask_iff]
  constructor
  · rintro ⟨-, t, ht, rfl⟩
    exact ⟨t, ht, rfl⟩
  · rintro ⟨t, ht, rfl⟩
    exact ⟨t.number_lt, t, ht, rfl⟩

/-- Row counts are read back up to the end of their bytes. -/
theorem readCounts?_flatMap {n : Table → Nat} (hcounts : ∀ t, n t < 2 ^ 32) (us : List Table)
    (rest : Bytes) :
    readCounts? (us.map Table.number) (us.flatMap (fun t => littleEndian 4 (n t)) ++ rest) =
      some (us.map fun t => (t.number, n t), rest) := by
  induction us with
  | nil => rfl
  | cons t us ih =>
    rw [List.flatMap_cons, List.append_assoc, List.map_cons, readCounts?,
      readNumber?_littleEndian (hcounts t)]
    simp [ih]

/-- The row count of a table that is listed. -/
theorem countIn_map {n : Table → Nat} (us : List Table) (t : Table) :
    countIn (us.map fun u => (u.number, n u)) t = if t ∈ us then n t else 0 := by
  induction us with
  | nil => rfl
  | cons u us ih =>
    by_cases h : t = u
    · subst h
      simp [countIn]
    · have hnumber : (t.number == u.number) = false := by
        simpa using fun heq => h (Table.eq_of_number_eq heq)
      rw [countIn, List.map_cons, List.lookup_cons, hnumber]
      simpa [h, countIn] using ih

/-- A reader knows the row count of every table. -/
theorem Tables.countIn_nonempty (ts : Tables) :
    countIn (ts.nonempty.map fun t => (t.number, ts.rowCount t)) = ts.counts.count := by
  funext t
  rw [countIn_map, ts.count_counts]
  split
  · rfl
  · rename_i hmem
    have : ¬ ts.rowCount t > 0 := by
      intro hpos
      exact hmem (List.mem_filter.2 ⟨Table.mem_all t, by simpa using hpos⟩)
    omega

/-! ## The stream -/

/-- A list ends just past two bytes only in a table of 65535 rows. -/
theorem Entry.not_isWideEnd {n : Table → Nat} (h : ∀ t, n t ≠ 65535) (e : Entry) :
    ¬ e.IsWideEnd n := by
  obtain ⟨⟨name, ty⟩, cell⟩ := e
  cases ty <;> simp [Entry.IsWideEnd, h]

/-- The tables are read back from the front of a run that starts with their stream. -/
theorem Tables.readStream?_append {ts : Tables} {heaps : HeapSizes} {bytes : Bytes}
    (hstream : ts.stream heaps = .ok bytes) (hrows : ∀ t, ts.rowCount t < 2 ^ 27)
    (hends : ∀ p e, ts.cellAt? p = some e → ¬ e.IsWideEnd ts.rowCount) (rest : Bytes) :
    Tables.readStream? (bytes ++ rest) = some (ts, rest) := by
  obtain ⟨hres, rfl⟩ := (ts.stream_eq_ok_iff heaps bytes).1 hstream
  have hcounts : ∀ t, ts.counts.count t < 2 ^ 27 := by
    rw [ts.count_counts]
    exact hrows
  have hread : ∀ t, ∀ row ∈ (ts.get t).toList, ∀ e ∈ row.entries,
      e.Readable ts.counts.count heaps := by
    rw [ts.count_counts]
    exact ts.forall_cellAt?_iff.1 fun p e he => ⟨hres p e he, hends p e he⟩
  have hrest := RowStore.read?_flatMap_encode hcounts ts (by decide)
    (fun t _ => by rw [ts.count_counts]; rfl) (fun t _ => hread t) rest
  have hversions : (zeros 4 ++ ([2, 0, 0x07, 1] : Bytes)).length = 8 := rfl
  have hlayout : ts.streamHeader ++ ts.streamCounts ++ ts.streamRows ++ rest =
      (zeros 4 ++ [2, 0, 0x07, 1]) ++ (littleEndian 8 ts.validMask ++
        (littleEndian 8 Table.sortedMask ++ (ts.streamCounts ++ (ts.streamRows ++ rest)))) := by
    simp only [Tables.streamHeader, List.append_assoc]
  have hwords : ∀ t, ts.rowCount t < 2 ^ 32 := fun t => (hrows t).trans (by norm_num)
  have hmask : ts.validMask < 256 ^ 8 := Table.mask_lt ts.nonempty
  rw [hlayout, Tables.readStream?, skip?_append hversions, Option.bind_eq_bind, Option.bind_some,
    readNumber?_littleEndian hmask]
  simp only [Option.bind_eq_bind, Option.bind_some, skip?_append (length_littleEndian 8 _),
    ts.maskBits_validMask, Tables.streamCounts, readCounts?_flatMap hwords, ts.countIn_nonempty]
  exact hrest

/-- The tables are read back from the bytes of their stream, which end with them. -/
theorem Tables.readStream?_of_stream_eq_ok {ts : Tables} {heaps : HeapSizes} {bytes : Bytes}
    (hstream : ts.stream heaps = .ok bytes) (hrows : ∀ t, ts.rowCount t < 2 ^ 27)
    (hends : ∀ p e, ts.cellAt? p = some e → ¬ e.IsWideEnd ts.rowCount) :
    Tables.readStream? bytes = some (ts, []) := by
  have hread := Tables.readStream?_append hstream hrows hends []
  rwa [List.append_nil] at hread

/-- A type, a type that extends it, and a method of the latter. -/
def Tables.derivedType : Tables :=
  let base : Row .typeDef := Row.typeDef 1 1 1
  let derived : Row .typeDef :=
    .cons (0 : UInt32) <| .cons (5 : UInt32) <| .cons (0 : UInt32) <|
      .cons (some (⟨.typeDef, 1, by decide⟩ : CodedIndex .typeDefOrRef)) <|
      .cons (1 : UInt32) <| .cons (1 : UInt32) .nil
  let method : Row .methodDef := Row.methodDef (some 0x2050) 0 0x96 9 1 1
  (((Tables.empty.push base).2.push derived).2.push method).2

theorem Tables.readStream?_derivedType :
    ∃ bytes, derivedType.stream ⟨16, 4, 0⟩ = .ok bytes ∧
      readStream? bytes = some (derivedType, []) := by
  have hstream : derivedType.stream ⟨16, 4, 0⟩ = .ok _ := rfl
  have hrows : ∀ t, derivedType.rowCount t < 3 := by
    intro t
    cases t <;> decide
  refine ⟨_, hstream, readStream?_of_stream_eq_ok hstream ?_ ?_⟩
  · exact fun t => (hrows t).trans (by norm_num)
  · exact fun p e _ => e.not_isWideEnd fun t => ((hrows t).trans (by norm_num)).ne

end QuillImage.Metadata
