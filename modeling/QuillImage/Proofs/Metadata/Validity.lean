import Mathlib.Tactic
import QuillImage.Metadata.TableStream

/-!
# Rows that resolve

`ColumnType.Resolves` says when a cell leads to something: an offset into its
heap, an identifier that is there, a row of its target table. `Reported` relates
a cell that does not to the failure that names it. The places of cells are
ordered as in the stream, by table, row and column.

Main statement: `Tables.stream` gives a result exactly when every cell resolves,
and otherwise the failure that is reported for the first cell, in the order of
the stream, that does not (`stream_ok_iff_and_error_iff`).
-/

namespace QuillImage.Metadata

/-! ## What cells have to satisfy -/

/-- A row reference that names one of the rows of its table. -/
def CodedIndex.Resolves (n : Table → Nat) {k : CodedKind} (x : CodedIndex k) : Prop :=
  1 ≤ x.row.toNat ∧ x.row.toNat ≤ n x.table

/-- A cell that leads to something, with the row counts `n` and the heap sizes
`heaps`. Numbers lead nowhere and are never wrong. -/
def ColumnType.Resolves (n : Table → Nat) (heaps : HeapSizes) :
    (ty : ColumnType) → ty.Cell → Prop
  | .byte, _ | .word, _ | .dword, _ | .padding, _ => True
  | .lateBound, v => ∃ w, v = some w
  | .string, v => v.toNat = 0 ∨ v.toNat < heaps.strings
  | .blob, v => v.toNat = 0 ∨ v.toNat < heaps.blobs
  | .guid, v => v.toNat ≤ heaps.guids
  | .index target, v => 1 ≤ v.toNat ∧ v.toNat ≤ n target
  | .list target, v => 1 ≤ v.toNat ∧ v.toNat ≤ n target + 1
  | .coded _, x => x.Resolves n
  | .optionalCoded _, x => ∀ y, x = some y → y.Resolves n

/-- The failure that is reported for a cell at a position: it carries the
position, the heap or the table that the cell should lead to, and the number in
the cell. The only field that is filled in later is the address of a method. -/
inductive Reported (p : CellPosition) : (ty : ColumnType) → ty.Cell → Failure → Prop where
  | lateBound (v : Option UInt32) : Reported p .lateBound v (.unsetField "MethodDef" "RVA")
  | string (v : UInt32) : Reported p .string v (.badHeapReference p "#Strings" v.toNat)
  | blob (v : UInt32) : Reported p .blob v (.badHeapReference p "#Blob" v.toNat)
  | guid (v : UInt32) : Reported p .guid v (.badHeapReference p "#GUID" v.toNat)
  | index (target : Table) (v : UInt32) :
      Reported p (.index target) v (.danglingReference p target.name v.toNat)
  | list (target : Table) (v : UInt32) :
      Reported p (.list target) v (.danglingReference p target.name v.toNat)
  | coded {k : CodedKind} (x : CodedIndex k) :
      Reported p (.coded k) x (.danglingReference p x.table.name x.row.toNat)
  | optionalCoded {k : CodedKind} (x : CodedIndex k) :
      Reported p (.optionalCoded k) (some x) (.danglingReference p x.table.name x.row.toNat)

/-- One failure is reported for a cell. -/
theorem Reported.unique {p : CellPosition} {ty : ColumnType} {cell : ty.Cell} {f g : Failure}
    (hf : Reported p ty cell f) (hg : Reported p ty cell g) : f = g := by
  cases hf <;> cases hg <;> rfl

/-! ## Places -/

/-- A cell with its column. -/
structure Entry where
  column : Column
  cell : column.type.Cell

/-- Whether the cell leads to something. -/
def Entry.Resolves (e : Entry) (n : Table → Nat) (heaps : HeapSizes) : Prop :=
  e.column.type.Resolves n heaps e.cell

/-- The cells of a row in the order of the columns. -/
def Cells.entries {cs : List Column} : Cells cs → List Entry
  | .nil => []
  | .cons (c := column) cell rest => ⟨column, cell⟩ :: rest.entries

/-- The place of a cell. -/
structure Place where
  table : Table
  /-- The position of the row, counted from one. -/
  row : Nat
  /-- The position of the column, counted from zero. -/
  column : Nat

/-- The order of the stream: by the number of the table, then by row, then by
column. -/
def Place.Before (p q : Place) : Prop :=
  p.table.number < q.table.number ∨
    p.table = q.table ∧ (p.row < q.row ∨ p.row = q.row ∧ p.column < q.column)

/-- The cell at a place. -/
def Tables.cellAt? (ts : Tables) (p : Place) : Option Entry :=
  (ts.row? p.table p.row).bind fun row => row.entries[p.column]?

/-- Every cell of every row leads to something. -/
def Tables.Resolves (ts : Tables) (heaps : HeapSizes) : Prop :=
  ∀ p e, ts.cellAt? p = some e → e.Resolves ts.rowCount heaps

/-- The failure is reported for a cell that leads nowhere, and every cell before
it leads to something. -/
def Tables.FirstFailure (ts : Tables) (heaps : HeapSizes) (f : Failure) : Prop :=
  ∃ p e, ts.cellAt? p = some e ∧ ¬ e.Resolves ts.rowCount heaps ∧
    Reported ⟨p.table.name, p.row, e.column.name⟩ e.column.type e.cell f ∧
      ∀ q e', q.Before p → ts.cellAt? q = some e' → e'.Resolves ts.rowCount heaps

/-! ## One cell -/

/-- The check of a row reference. -/
theorem Bounds.coded?_eq_none_iff (b : Bounds) (p : CellPosition) {k : CodedKind}
    (x : CodedIndex k) : b.coded? p x = none ↔ x.Resolves b.counts.count := by
  simp only [Bounds.coded?, CodedIndex.Resolves, ite_eq_right_iff, reduceCtorEq, imp_false]
  omega

/-- The failure of a row reference. -/
theorem Bounds.eq_of_coded?_eq_some {b : Bounds} {p : CellPosition} {k : CodedKind}
    {x : CodedIndex k} {f : Failure} (h : b.coded? p x = some f) :
    f = .danglingReference p x.table.name x.row.toNat := by
  simp only [Bounds.coded?] at h
  split at h
  · exact (Option.some.inj h).symm
  · cases h

/-- The check of an offset. -/
theorem Bounds.offset?_eq_none_iff (p : CellPosition) (heap : HeapName) (size : Nat)
    (offset : UInt32) :
    Bounds.offset? p heap size offset = none ↔ offset.toNat = 0 ∨ offset.toNat < size := by
  simp only [Bounds.offset?, ite_eq_right_iff, reduceCtorEq, imp_false]
  omega

/-- The failure of an offset. -/
theorem Bounds.eq_of_offset?_eq_some {p : CellPosition} {heap : HeapName} {size : Nat}
    {offset : UInt32} {f : Failure} (h : Bounds.offset? p heap size offset = some f) :
    f = .badHeapReference p heap.stream offset.toNat := by
  simp only [Bounds.offset?] at h
  split at h
  · exact (Option.some.inj h).symm
  · cases h

/-- A cell passes its check exactly when it leads to something. -/
theorem Bounds.cell?_eq_none_iff (b : Bounds) (p : CellPosition) (ty : ColumnType)
    (cell : ty.Cell) : b.cell? p ty cell = none ↔ ty.Resolves b.counts.count b.heaps cell := by
  cases ty with
  | byte | word | dword | padding => simp [Bounds.cell?, ColumnType.Resolves]
  | lateBound => cases cell <;> simp [Bounds.cell?, ColumnType.Resolves]
  | string => exact offset?_eq_none_iff p .strings b.heaps.strings cell
  | blob => exact offset?_eq_none_iff p .blob b.heaps.blobs cell
  | guid => simp [Bounds.cell?, ColumnType.Resolves]
  | index target | list target =>
    simp only [Bounds.cell?, ColumnType.Resolves, ite_eq_right_iff, reduceCtorEq, imp_false]
    omega
  | coded k => exact b.coded?_eq_none_iff p cell
  | optionalCoded k =>
    cases cell with
    | none => simp [Bounds.cell?, ColumnType.Resolves]
    | some x => simpa [Bounds.cell?, ColumnType.Resolves] using b.coded?_eq_none_iff p x

/-- A cell that fails its check is reported. -/
theorem Bounds.reported_of_cell?_eq_some {b : Bounds} {p : CellPosition} {ty : ColumnType}
    {cell : ty.Cell} {f : Failure}
    (hlate : ty = .lateBound → p.table = "MethodDef" ∧ p.column = "RVA")
    (h : b.cell? p ty cell = some f) : Reported p ty cell f := by
  cases ty with
  | byte | word | dword | padding => simp [Bounds.cell?] at h
  | lateBound =>
    obtain ⟨htable, hcolumn⟩ := hlate rfl
    simp only [Bounds.cell?, htable, hcolumn] at h
    split at h
    · obtain rfl := Option.some.inj h
      exact .lateBound cell
    · cases h
  | string =>
    obtain rfl := eq_of_offset?_eq_some h
    exact .string cell
  | blob =>
    obtain rfl := eq_of_offset?_eq_some h
    exact .blob cell
  | guid =>
    simp only [Bounds.cell?] at h
    split at h
    · obtain rfl := Option.some.inj h
      exact .guid cell
    · cases h
  | index target =>
    simp only [Bounds.cell?] at h
    split at h
    · obtain rfl := Option.some.inj h
      exact .index target cell
    · cases h
  | list target =>
    simp only [Bounds.cell?] at h
    split at h
    · obtain rfl := Option.some.inj h
      exact .list target cell
    · cases h
  | coded k =>
    obtain rfl := eq_of_coded?_eq_some h
    exact .coded cell
  | optionalCoded k =>
    cases cell with
    | none => simp [Bounds.cell?] at h
    | some x =>
      obtain rfl := eq_of_coded?_eq_some (x := x) h
      exact .optionalCoded x

/-! ## Rows and tables -/

/-- The check of a cell in a row of a table. -/
def Bounds.check? (b : Bounds) (t : Table) (row : Nat) (e : Entry) : Option Failure :=
  b.cell? ⟨t.name, row, e.column.name⟩ e.column.type e.cell

/-- The check of a row goes through its cells in order. -/
theorem Bounds.cells?_eq_findSome? (b : Bounds) (t : Table) (row : Nat) {cs : List Column}
    (cells : Cells cs) : b.cells? t row cells = cells.entries.findSome? (b.check? t row) := by
  induction cells with
  | nil => rfl
  | cons cell rest ih =>
    rw [Bounds.cells?, Cells.entries, List.findSome?_cons, ih]
    cases h : b.check? t row ⟨_, cell⟩ with
    | none => simp [show b.cell? _ _ cell = none from h]
    | some f => simp [show b.cell? _ _ cell = some f from h]

/-- Only the address of a method is filled in later. -/
theorem Table.eq_methodDef_of_lateBound {t : Table} {c : Column} (hc : c ∈ t.columns)
    (h : c.type = .lateBound) : t = .methodDef ∧ c.name = "RVA" := by
  have hall : ∀ c ∈ t.columns, c.type = .lateBound → t = .methodDef ∧ c.name = "RVA" := by
    cases t <;> decide
  exact hall c hc h

/-- The columns of the cells are those of the row. -/
theorem Cells.map_column_entries {cs : List Column} (cells : Cells cs) :
    cells.entries.map (·.column) = cs := by
  induction cells with
  | nil => rfl
  | cons cell rest ih => simp [Cells.entries, ih]

/-- A cell of a row that fails its check is reported. -/
theorem Bounds.reported_of_check?_eq_some {b : Bounds} {t : Table} {n : Nat} {row : Row t}
    {e : Entry} {f : Failure} (he : e ∈ row.entries) (h : b.check? t n e = some f) :
    Reported ⟨t.name, n, e.column.name⟩ e.column.type e.cell f := by
  have hcolumn : e.column ∈ t.columns := by
    rw [← row.map_column_entries]
    exact List.mem_map_of_mem he
  refine Bounds.reported_of_cell?_eq_some (fun hlate => ?_) h
  obtain ⟨rfl, hname⟩ := Table.eq_methodDef_of_lateBound hcolumn hlate
  exact ⟨rfl, hname⟩

/-- The check of the rows of a table goes through them in order, with their
positions. -/
theorem Bounds.rows?_eq_findSome? (b : Bounds) (t : Table) (start : Nat) (rows : List (Row t)) :
    b.rows? t start rows = (rows.zipIdx start).findSome? fun r => b.cells? t r.2 r.1 := by
  induction rows generalizing start with
  | nil => rfl
  | cons r rs ih =>
    rw [Bounds.rows?, List.zipIdx_cons, List.findSome?_cons, ih]
    cases b.cells? t start r <;> rfl

/-- The positions of rows are counted from one. -/
theorem Tables.getElem?_zipIdx_eq_some_iff (ts : Tables) (t : Table) (i : Nat)
    (x : Row t × Nat) :
    ((ts.get t).toList.zipIdx 1)[i]? = some x ↔ x.2 = i + 1 ∧ ts.row? t x.2 = some x.1 := by
  obtain ⟨row, n⟩ := x
  simp only [List.getElem?_zipIdx, Option.map_eq_some_iff, Prod.mk.injEq, Tables.row?]
  constructor
  · rintro ⟨r, hr, rfl, rfl⟩
    simpa [Nat.add_comm] using hr
  · rintro ⟨rfl, h⟩
    exact ⟨row, by simpa using h, rfl, by omega⟩

/-- No row stands at position zero. -/
theorem Tables.pos_of_row? (ts : Tables) {t : Table} {n : Nat} {row : Row t}
    (h : ts.row? t n = some row) : 0 < n := by
  rcases Nat.eq_zero_or_pos n with rfl | hpos
  · simp [Tables.row?] at h
  · exact hpos

/-- A row stands one place before its position. -/
theorem Tables.getElem?_zipIdx_of_row? (ts : Tables) {t : Table} {n : Nat} {row : Row t}
    (h : ts.row? t n = some row) : ((ts.get t).toList.zipIdx 1)[n - 1]? = some (row, n) := by
  have hpos := ts.pos_of_row? h
  exact (ts.getElem?_zipIdx_eq_some_iff t (n - 1) (row, n)).2 ⟨by simp only; omega, h⟩

/-- The first element that a function gives a result for, by its place. -/
theorem exists_of_findSome?_eq_some {α β : Type} {g : α → Option β} {l : List α} {b : β}
    (h : l.findSome? g = some b) :
    ∃ (i : Nat) (a : α), l[i]? = some a ∧ g a = some b ∧
      ∀ j < i, ∀ a', l[j]? = some a' → g a' = none := by
  obtain ⟨l₁, a, l₂, rfl, hga, hbefore⟩ := List.findSome?_eq_some_iff.1 h
  refine ⟨l₁.length, a, by simp, hga, fun j hj a' ha' => ?_⟩
  rw [List.getElem?_append_left hj] at ha'
  exact hbefore a' (List.mem_of_getElem? ha')

/-! ## The order of places -/

/-- The tables are listed by ascending number. -/
theorem Table.pairwise_number_all : Table.all.Pairwise fun t u => t.number < u.number := by
  decide

/-- Tables with equal numbers are equal. -/
theorem Table.eq_of_number_eq {t u : Table} (h : t.number = u.number) : t = u := by
  have ht := Table.ofNumber?_number t
  rw [h, Table.ofNumber?_number] at ht
  exact (Option.some.inj ht).symm

/-- A table with a smaller number is listed earlier. -/
theorem Table.lt_of_number_lt {i j : Nat} {t u : Table} (ht : Table.all[i]? = some t)
    (hu : Table.all[j]? = some u) (h : u.number < t.number) : j < i := by
  obtain ⟨hi, rfl⟩ := List.getElem?_eq_some_iff.1 ht
  obtain ⟨hj, rfl⟩ := List.getElem?_eq_some_iff.1 hu
  rcases Nat.lt_trichotomy i j with hij | rfl | hij
  · have := List.pairwise_iff_getElem.1 Table.pairwise_number_all i j hi hj hij
    omega
  · omega
  · exact hij

/-- Two places are equal, or one comes before the other. -/
theorem Place.before_trichotomy (p q : Place) : p.Before q ∨ p = q ∨ q.Before p := by
  obtain ⟨t, i, j⟩ := p
  obtain ⟨u, k, l⟩ := q
  simp only [Place.Before, Place.mk.injEq]
  rcases Nat.lt_trichotomy t.number u.number with h | h | h
  · exact Or.inl (Or.inl h)
  · obtain rfl := Table.eq_of_number_eq h
    simp only [lt_self_iff_false, true_and, false_or]
    omega
  · exact Or.inr (Or.inr (Or.inl h))

/-! ## The stream -/

namespace Tables

variable (ts : Tables) (heaps : HeapSizes)

/-- The counts that rows are checked against are those of the tables. -/
theorem count_counts : ts.counts.count = ts.rowCount :=
  funext (RowCounts.count_ofFn ts.rowCount)

/-- What the cells of the tables are checked against. -/
def bounds : Bounds := ⟨ts.counts, heaps⟩

/-- A cell passes its check exactly when it leads to something. -/
theorem bounds_check?_eq_none_iff (t : Table) (row : Nat) (e : Entry) :
    (ts.bounds heaps).check? t row e = none ↔ e.Resolves ts.rowCount heaps := by
  rw [Bounds.check?, Bounds.cell?_eq_none_iff, Entry.Resolves, bounds, count_counts]

/-- The cell at a place stands in the row at the place. -/
theorem cellAt?_eq_some_iff (p : Place) (e : Entry) :
    ts.cellAt? p = some e ↔
      ∃ row, ts.row? p.table p.row = some row ∧ row.entries[p.column]? = some e :=
  Option.bind_eq_some_iff

/-- The cells at all places are the cells of all rows. -/
theorem forall_cellAt?_iff {P : Entry → Prop} :
    (∀ p e, ts.cellAt? p = some e → P e) ↔
      ∀ t, ∀ row ∈ (ts.get t).toList, ∀ e ∈ row.entries, P e := by
  constructor
  · intro h t row hrow e he
    obtain ⟨i, hi⟩ := List.mem_iff_getElem?.1 hrow
    obtain ⟨j, hj⟩ := List.mem_iff_getElem?.1 he
    refine h ⟨t, i + 1, j⟩ e ((ts.cellAt?_eq_some_iff _ e).2 ⟨row, ?_, hj⟩)
    simpa [Tables.row?] using hi
  · rintro h ⟨t, n, j⟩ e he
    obtain ⟨row, hrow, hentry⟩ := (ts.cellAt?_eq_some_iff _ e).1 he
    have hmem := List.mem_of_getElem? (ts.getElem?_zipIdx_of_row? hrow)
    exact h t row (List.fst_mem_of_mem_zipIdx hmem) e (List.mem_of_getElem? hentry)

/-- The rows of a table pass their check exactly when every cell of the table
leads to something. -/
theorem rows?_eq_none_iff (t : Table) :
    (ts.bounds heaps).rows? t 1 (ts.get t).toList = none ↔
      ∀ n j e, ts.cellAt? ⟨t, n, j⟩ = some e → e.Resolves ts.rowCount heaps := by
  simp only [Bounds.rows?_eq_findSome?, List.findSome?_eq_none_iff, Bounds.cells?_eq_findSome?]
  constructor
  · intro h n j e he
    obtain ⟨row, hrow, hentry⟩ := (ts.cellAt?_eq_some_iff _ e).1 he
    have hmem := List.mem_of_getElem? (ts.getElem?_zipIdx_of_row? hrow)
    exact (ts.bounds_check?_eq_none_iff heaps t n e).1
      (h _ hmem e (List.mem_of_getElem? hentry))
  · intro h x hx e he
    obtain ⟨i, hi⟩ := List.mem_iff_getElem?.1 hx
    obtain ⟨j, hj⟩ := List.mem_iff_getElem?.1 he
    obtain ⟨-, hrow⟩ := (ts.getElem?_zipIdx_eq_some_iff t i x).1 hi
    exact (ts.bounds_check?_eq_none_iff heaps t x.2 e).2
      (h x.2 j e ((ts.cellAt?_eq_some_iff _ e).2 ⟨x.1, hrow, hj⟩))

/-- No failure is found exactly when every cell leads to something. -/
theorem violation?_eq_none_iff : ts.violation? heaps = none ↔ ts.Resolves heaps := by
  have hlist : ts.violation? heaps = none ↔
      ∀ t ∈ Table.all, (ts.bounds heaps).rows? t 1 (ts.get t).toList = none :=
    List.findSome?_eq_none_iff
  rw [hlist]
  constructor
  · rintro h ⟨t, n, j⟩ e he
    exact (ts.rows?_eq_none_iff heaps t).1 (h t (Table.mem_all t)) n j e he
  · intro h t _
    exact (ts.rows?_eq_none_iff heaps t).2 fun n j e he => h ⟨t, n, j⟩ e he

/-- A failure that is found is that of the first cell that leads nowhere. -/
theorem firstFailure_of_violation? {f : Failure} (h : ts.violation? heaps = some f) :
    ts.FirstFailure heaps f := by
  obtain ⟨i, t, ht, hrows, htablesBefore⟩ := exists_of_findSome?_eq_some h
  rw [Bounds.rows?_eq_findSome?] at hrows
  obtain ⟨j, ⟨row, n⟩, hj, hcells, hrowsBefore⟩ := exists_of_findSome?_eq_some hrows
  obtain ⟨rfl, hrow⟩ := (ts.getElem?_zipIdx_eq_some_iff t j _).1 hj
  rw [Bounds.cells?_eq_findSome?] at hcells
  obtain ⟨k, e, hk, hcell, hcellsBefore⟩ := exists_of_findSome?_eq_some hcells
  refine ⟨⟨t, j + 1, k⟩, e, (ts.cellAt?_eq_some_iff _ e).2 ⟨row, hrow, hk⟩, ?_,
    Bounds.reported_of_check?_eq_some (List.mem_of_getElem? hk) hcell, ?_⟩
  · rw [← ts.bounds_check?_eq_none_iff heaps t (j + 1)]
    exact fun hnone => Option.some_ne_none f (hcell.symm.trans hnone)
  -- An earlier cell stands in an earlier table, an earlier row or an earlier column.
  · rintro ⟨u, n, l⟩ e' hbefore he'
    simp only [Place.Before] at hbefore
    rcases hbefore with hnumber | ⟨rfl, hlt | ⟨rfl, hlt⟩⟩
    · obtain ⟨i', hi'⟩ := List.mem_iff_getElem?.1 (Table.mem_all u)
      have hu := htablesBefore i' (Table.lt_of_number_lt ht hi' hnumber) u hi'
      exact (ts.rows?_eq_none_iff heaps u).1 hu n l e' he'
    · obtain ⟨row', hrow', hl⟩ := (ts.cellAt?_eq_some_iff _ e').1 he'
      have hpos : 0 < n := ts.pos_of_row? hrow'
      have hget := ts.getElem?_zipIdx_of_row? hrow'
      have hpass := hrowsBefore (n - 1) (by omega) _ hget
      rw [Bounds.cells?_eq_findSome?, List.findSome?_eq_none_iff] at hpass
      exact (ts.bounds_check?_eq_none_iff heaps u n e').1
        (hpass e' (List.mem_of_getElem? hl))
    · obtain ⟨row', hrow', hl⟩ := (ts.cellAt?_eq_some_iff _ e').1 he'
      obtain rfl : row = row' := Option.some.inj (hrow.symm.trans hrow')
      exact (ts.bounds_check?_eq_none_iff heaps u (j + 1) e').1 (hcellsBefore l hlt e' hl)

/-- At most one failure is that of the first cell that leads nowhere. -/
theorem FirstFailure.unique {f g : Failure} (hf : ts.FirstFailure heaps f)
    (hg : ts.FirstFailure heaps g) : f = g := by
  -- of two places one is before the other, where every cell leads to something
  obtain ⟨p, e, hp, hfail, hreported, hbefore⟩ := hf
  obtain ⟨q, e', hq, hfail', hreported', hbefore'⟩ := hg
  rcases p.before_trichotomy q with h | rfl | h
  · exact absurd (hbefore' p e h hp) hfail
  · obtain rfl : e = e' := Option.some.inj (hp.symm.trans hq)
    exact hreported.unique hreported'
  · exact absurd (hbefore q e' h hq) hfail'

/-- The failure that is found is exactly that of the first cell that leads
nowhere. -/
theorem violation?_eq_some_iff (f : Failure) :
    ts.violation? heaps = some f ↔ ts.FirstFailure heaps f := by
  refine ⟨ts.firstFailure_of_violation? heaps, fun hf => ?_⟩
  cases h : ts.violation? heaps with
  | none =>
    obtain ⟨p, e, hp, hfail, -⟩ := hf
    exact absurd ((ts.violation?_eq_none_iff heaps).1 h p e hp) hfail
  | some g => rw [hf.unique ts heaps (ts.firstFailure_of_violation? heaps h)]

/-- A table stream that exists is the header, the row counts and the rows, and
every cell leads to something. -/
theorem stream_eq_ok_iff (bytes : Bytes) :
    ts.stream heaps = .ok bytes ↔
      ts.Resolves heaps ∧ ts.streamHeader ++ ts.streamCounts ++ ts.streamRows = bytes := by
  rw [← violation?_eq_none_iff, stream]
  cases ts.violation? heaps <;> simp

/-- A stream that does not exist fails with the first failure that is found. -/
theorem stream_eq_error_iff (f : Failure) :
    ts.stream heaps = .error f ↔ ts.violation? heaps = some f := by
  rw [stream]
  cases ts.violation? heaps <;> simp

/-- The table stream exists exactly when every cell leads to something. Otherwise
the failure is the one that is reported for the first cell that does not. -/
theorem stream_ok_iff_and_error_iff :
    ((∃ bytes, ts.stream heaps = .ok bytes) ↔ ts.Resolves heaps) ∧
      ∀ f, ts.stream heaps = .error f ↔ ts.FirstFailure heaps f := by
  refine ⟨?_, fun f => ?_⟩
  · simp only [stream_eq_ok_iff, exists_and_left, exists_eq', and_true]
  · rw [stream_eq_error_iff, violation?_eq_some_iff]

end Tables

end QuillImage.Metadata
