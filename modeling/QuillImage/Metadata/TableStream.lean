import QuillImage.Metadata.Heap
import QuillImage.Metadata.Tables

/-!
# The table stream

The rows of all tables in their stored form: a header with the masks of the
tables that have rows and of those said to be sorted, the row counts, and the
rows table by table. A reference to a row takes two or four bytes, by the row
counts of the tables it can lead to; a reference to a heap always takes four.

Before anything is written, every cell is checked: `Tables.violation?` finds the
first cell, in the order of the stream, that refers to nothing or was never
filled in.
-/

namespace QuillImage.Metadata

/-- The sizes that heap references are checked against. -/
structure HeapSizes where
  strings : Nat
  blobs : Nat
  guids : Nat
  deriving DecidableEq, Repr

/-! ## Row counts -/

/-- The row count of each table, by the number of the table. Tables have fewer than
`2 ^ 32 - 1` rows, so that a list can start one past the last row of any table. -/
structure RowCounts where
  byNumber : Array Nat
  deriving DecidableEq, Repr

namespace RowCounts

/-- The row counts that a function gives. -/
def ofFn (f : Table → Nat) : RowCounts :=
  ⟨Array.ofFn fun i : Fin 64 => ((Table.ofNumber? i.val).map f).getD 0⟩

/-- The row count of a table. -/
def count (c : RowCounts) (t : Table) : Nat := c.byNumber.getD t.number 0

theorem count_ofFn (f : Table → Nat) (t : Table) : (ofFn f).count t = f t := by
  simp [ofFn, count, Array.getD, Table.number_lt, Table.ofNumber?_number]

end RowCounts

/-- The row counts of the tables. -/
def Tables.counts (ts : Tables) : RowCounts := .ofFn ts.rowCount

/-! ## Stored form of a cell -/

/-- The width of a reference to a row of a table. -/
def indexWidth (c : RowCounts) (target : Table) : Nat :=
  if c.count target < 0x10000 then 2 else 4

/-- The width of a coded index: its value has to fit for every candidate. -/
def codedWidth (c : RowCounts) (k : CodedKind) : Nat :=
  if (k.candidates.filterMap id).all (fun t => c.count t < Nat.pow 2 (16 - k.tagBits)) then 2
  else 4

/-- The width of a column in bytes. -/
def ColumnType.width (c : RowCounts) : ColumnType → Nat
  | byte | padding => 1
  | word => 2
  | dword | lateBound | string | blob | guid => 4
  | index target | list target => indexWidth c target
  | coded kind | optionalCoded kind => codedWidth c kind

/-- The number that stands for a cell in the stream. -/
def ColumnType.value : (ty : ColumnType) → ty.Cell → Nat
  | byte, v => v.toNat
  | word, v => v.toNat
  | padding, _ => 0
  | lateBound, v => (v.getD 0).toNat
  | dword, v | string, v | blob, v | guid, v | index _, v | list _, v => v.toNat
  | coded _, v => v.encode.toNat
  | optionalCoded _, v => (v.map (·.encode.toNat)).getD 0

/-- The stored cells of a row. -/
def Cells.encode (c : RowCounts) {cs : List Column} : Cells cs → Bytes
  | .nil => []
  | .cons (c := column) cell rest =>
    littleEndian (column.type.width c) (column.type.value cell) ++ rest.encode c

/-! ## Checks -/

/-- What the cells are checked against. -/
structure Bounds where
  counts : RowCounts
  heaps : HeapSizes
  deriving DecidableEq, Repr

/-- The failure of a row reference that leads nowhere. -/
def Bounds.coded? (b : Bounds) (p : CellPosition) {k : CodedKind} (x : CodedIndex k) :
    Option Failure :=
  if x.row.toNat = 0 ∨ b.counts.count x.table < x.row.toNat then
    some (.danglingReference p x.table.name x.row.toNat)
  else none

/-- The failure of an offset that lies outside of its heap. -/
def Bounds.offset? (p : CellPosition) (heap : HeapName) (size : Nat) (offset : UInt32) :
    Option Failure :=
  if offset.toNat ≠ 0 ∧ size ≤ offset.toNat then
    some (.badHeapReference p heap.stream offset.toNat)
  else none

/-- The failure of a cell, if it has one. -/
def Bounds.cell? (b : Bounds) (p : CellPosition) : (ty : ColumnType) → ty.Cell → Option Failure
  | .byte, _ | .word, _ | .dword, _ | .padding, _ => none
  | .lateBound, v => if v.isNone then some (.unsetField p.table p.column) else none
  | .string, v => offset? p .strings b.heaps.strings v
  | .blob, v => offset? p .blob b.heaps.blobs v
  | .guid, v =>
    if b.heaps.guids < v.toNat then
      some (.badHeapReference p HeapName.guid.stream v.toNat)
    else none
  | .index target, v =>
    if v.toNat = 0 ∨ b.counts.count target < v.toNat then
      some (.danglingReference p target.name v.toNat)
    else none
  | .list target, v =>
    if v.toNat = 0 ∨ b.counts.count target + 1 < v.toNat then
      some (.danglingReference p target.name v.toNat)
    else none
  | .coded _, v => b.coded? p v
  | .optionalCoded _, v => v.bind (b.coded? p)

/-- The first failure among the cells of a row. -/
def Bounds.cells? (b : Bounds) (t : Table) (row : Nat) {cs : List Column} :
    Cells cs → Option Failure
  | .nil => none
  | .cons (c := column) cell rest =>
    (b.cell? ⟨t.name, row, column.name⟩ column.type cell).or (b.cells? t row rest)

/-- The first failure among rows of a table, the first of which stands at
position `row`. -/
def Bounds.rows? (b : Bounds) (t : Table) : (row : Nat) → List (Row t) → Option Failure
  | _, [] => none
  | row, r :: rs =>
    match b.cells? t row r with
    | some f => some f
    | none => b.rows? t (row + 1) rs

namespace Tables

/-- The first failure in the order of the stream: by table, then by row, then by
column. -/
def violation? (ts : Tables) (heaps : HeapSizes) : Option Failure :=
  let bounds : Bounds := ⟨ts.counts, heaps⟩
  Table.all.findSome? fun t => bounds.rows? t 1 (ts.get t).toList

/-! ## The stream -/

/-- The bytes of the stream before the row counts: versions, the sizes of heap
references, and the two masks. -/
def streamHeader (ts : Tables) : Bytes :=
  zeros 4 ++ [2, 0, 0x07, 1] ++ littleEndian 8 ts.validMask ++ littleEndian 8 Table.sortedMask

/-- The row counts of the tables that have rows. -/
def streamCounts (ts : Tables) : Bytes :=
  ts.nonempty.flatMap fun t => littleEndian 4 (ts.rowCount t)

/-- The rows of all tables. -/
def streamRows (ts : Tables) : Bytes :=
  let counts := ts.counts
  Table.all.flatMap fun t => (ts.get t).toList.flatMap (Cells.encode counts)

/-- The table stream, or the first failure. -/
def stream (ts : Tables) (heaps : HeapSizes) : Except Failure Bytes :=
  match ts.violation? heaps with
  | some f => .error f
  | none => .ok (ts.streamHeader ++ ts.streamCounts ++ ts.streamRows)

end Tables

end QuillImage.Metadata
