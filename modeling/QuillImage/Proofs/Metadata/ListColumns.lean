import Mathlib.Tactic
import QuillImage.Proofs.Metadata.SortedTables

/-!
# Starts of lists

A list column holds the position of the first row of a run in its target table, which may be
one past the last row. Whether a position is accepted and how many bytes it gets are decided
by the row count in two ways: positions up to one past the last row are accepted, and two
bytes are enough for the positions of fewer than `2 ^ 16` rows. They disagree for a table of
65535 rows, where the position 65536 is accepted and does not fit its two bytes.

`RowNumbers` is what a reader finds in a table stream without knowing what the columns hold.
Main statement: of all positions that are accepted, 65536 in a table of 65535 rows is the only
one that is not read back. It is read as zero (`readNumber?_list_and_at?_list`).
-/

namespace QuillImage.Metadata

/-! ## One position -/

section Position

variable {target : Table} {v : UInt32}

/-- A position that is accepted is cut to its column. -/
theorem toNat_mod_width_list {c : RowCounts} {heaps : HeapSizes}
    (h : (ColumnType.list target).Resolves c.count heaps v) :
    v.toNat % 256 ^ (ColumnType.list target).width c =
      if c.count target = 65535 ∧ v.toNat = 65536 then 0 else v.toNat := by
  obtain ⟨-, hle⟩ := h
  have hword := v.toNat_lt
  simp only [ColumnType.width, indexWidth]
  split
  · split <;> omega
  · rw [if_neg (by omega)]
    exact Nat.mod_eq_of_lt hword

/-- The bytes of a list cell that passes its check, read with the width that a reader
derives. -/
theorem readNumber?_encode_list {b : Bounds} {p : CellPosition}
    (h : b.cell? p (.list target) v = none) :
    readNumber? (if b.counts.count target < 2 ^ 16 then 2 else 4)
        ((Cells.cons v .nil : Cells [⟨p.column, .list target⟩]).encode b.counts) =
      some (if b.counts.count target = 65535 ∧ v.toNat = 65536 then 0 else v.toNat, []) := by
  have hread := readNumber?_littleEndian_mod ((ColumnType.list target).width b.counts) v.toNat []
  rw [toNat_mod_width_list ((b.cell?_eq_none_iff p (.list target) v).1 h)] at hread
  exact hread

end Position

/-! ## All numbers of a stream -/

/-- Reads the numbers of all rows of a list of tables, by the row counts `n`. -/
def readRows? (n : Table → Nat) :
    List Table → Bytes → Option (List (Table × List (List Nat)) × Bytes)
  | [], bs => some ([], bs)
  | t :: ts, bs => do
    let (rows, bs) ← readList? (readNumbers? (t.columns.map (·.type.readWidth n))) (n t) bs
    let (rest, bs) ← readRows? n ts bs
    return ((t, rows) :: rest, bs)

/-- The numbers of all rows of a table stream. -/
structure RowNumbers where
  rows : List (Table × List (List Nat))

namespace RowNumbers

/-- Reads the numbers of all rows from a table stream, up to its end. -/
def read? (bs : Bytes) : Option RowNumbers := do
  let bs ← skip? 8 bs
  let (valid, bs) ← readNumber? 8 bs
  let bs ← skip? 8 bs
  let (counts, bs) ← readCounts? (maskBits valid) bs
  let (rows, bs) ← readRows? (countIn counts) Table.all bs
  if bs = [] then some ⟨rows⟩ else none

/-- The number at a place. -/
def at? (view : RowNumbers) (p : Place) : Option Nat := do
  let rows ← view.rows.lookup p.table
  let row ← rows[p.row - 1]?
  row[p.column]?

end RowNumbers

namespace Tables

variable (ts : Tables)

/-- The numbers of all rows, cut to the widths of their columns. -/
def storedRows (t : Table) : List (List Nat) := (ts.get t).toList.map (Cells.stored ts.counts)

/-- The numbers of the rows are read back up to the end of their bytes. -/
theorem readRows?_flatMap_encode (us : List Table) (rest : Bytes) :
    readRows? ts.counts.count us
        (us.flatMap (fun t => (ts.get t).toList.flatMap (Cells.encode ts.counts)) ++ rest) =
      some (us.map fun t => (t, ts.storedRows t), rest) := by
  induction us with
  | nil => rfl
  | cons t us ih =>
    have hcount : ts.counts.count t = (ts.get t).toList.length := by
      rw [ts.count_counts]
      rfl
    have hrows := readList?_flatMap (Cells.stored ts.counts) (ts.get t).toList
      (fun row _ => readNumbers?_encode ts.counts row)
      (us.flatMap (fun t => (ts.get t).toList.flatMap (Cells.encode ts.counts)) ++ rest)
    rw [List.flatMap_cons, List.append_assoc, readRows?, hcount, hrows]
    simp [ih, storedRows]

/-- All numbers of a stream are read back, cut to the widths of their columns. -/
theorem read?_rowNumbers {heaps : HeapSizes} {bytes : Bytes} (hstream : ts.stream heaps = .ok bytes)
    (hrows : ∀ t, ts.rowCount t < 2 ^ 32) :
    RowNumbers.read? bytes = some ⟨Table.all.map fun t => (t, ts.storedRows t)⟩ := by
  obtain ⟨-, rfl⟩ := (ts.stream_eq_ok_iff heaps bytes).1 hstream
  have hread := ts.readRows?_flatMap_encode Table.all []
  rw [List.append_nil] at hread
  have hversions : (zeros 4 ++ ([2, 0, 0x07, 1] : Bytes)).length = 8 := rfl
  have hvalid : ts.validMask < 256 ^ 8 := Table.mask_lt ts.nonempty
  have hlayout : ts.streamHeader ++ ts.streamCounts ++ ts.streamRows =
      (zeros 4 ++ [2, 0, 0x07, 1]) ++ (littleEndian 8 ts.validMask ++
        (littleEndian 8 Table.sortedMask ++ (ts.streamCounts ++ ts.streamRows))) := by
    simp only [Tables.streamHeader, List.append_assoc]
  rw [hlayout, RowNumbers.read?, skip?_append hversions]
  simp only [Option.bind_eq_bind, Option.bind_some, readNumber?_littleEndian hvalid,
    skip?_append (length_littleEndian 8 _), ts.maskBits_validMask, Tables.streamCounts,
    readCounts?_flatMap hrows, ts.countIn_nonempty, Tables.streamRows, hread, if_true]

theorem lookup_map_self {f : Table → List (List Nat)} {us : List Table} {t : Table} (h : t ∈ us) :
    (us.map fun u => (u, f u)).lookup t = some (f t) := by
  induction us with
  | nil => cases h
  | cons u us ih =>
    by_cases htu : t = u
    · subst htu
      simp
    · have hmem : t ∈ us := (List.mem_cons.1 h).resolve_left htu
      have hne : (t == u) = false := by simpa using htu
      rw [List.map_cons, List.lookup_cons, hne]
      exact ih hmem

/-- A reader finds the number of each cell at its place, cut to the width of its column. -/
theorem at?_storedRows {p : Place} {e : Entry} (h : ts.cellAt? p = some e) :
    RowNumbers.at? ⟨Table.all.map fun t => (t, ts.storedRows t)⟩ p =
      some (e.number % 256 ^ e.column.type.width ts.counts) := by
  obtain ⟨row, hrow, hentry⟩ := (ts.cellAt?_eq_some_iff p e).1 h
  have hpos := ts.pos_of_row? hrow
  have hget : (ts.get p.table).toList[p.row - 1]? = some row := by
    rw [row?, if_neg hpos.ne'] at hrow
    rwa [Array.getElem?_toList]
  simp [RowNumbers.at?, lookup_map_self (Table.mem_all p.table), storedRows, hget, Cells.stored,
    hentry]

/-- A reader finds the positions in list columns, cut to two bytes where they do not fit. -/
theorem at?_list {heaps : HeapSizes} {bytes : Bytes} (hstream : ts.stream heaps = .ok bytes)
    {p : Place} {name : String} {target : Table} {v : UInt32}
    (hcell : ts.cellAt? p = some ⟨⟨name, .list target⟩, v⟩) :
    RowNumbers.at? ⟨Table.all.map fun t => (t, ts.storedRows t)⟩ p =
      some (if ts.rowCount target = 65535 ∧ v.toNat = 65536 then 0 else v.toNat) := by
  have hres := ((ts.stream_eq_ok_iff heaps bytes).1 hstream).1 p _ hcell
  rw [Entry.Resolves, ← ts.count_counts] at hres
  rw [ts.at?_storedRows hcell, ← ts.count_counts]
  exact congrArg some (toNat_mod_width_list hres)

end Tables

/-! ## Positions in streams -/

/-- A list column accepts the positions from one up to one past the last row, as long as that is
a word. They are read back with the width that follows from the row count, unless the position
is one past the end of a table of 65535 rows. So a reader of a table stream finds the positions
in all list columns, except for those, which are read as zero. -/
theorem readNumber?_list_and_at?_list (b : Bounds) (p : CellPosition) (target : Table)
    (v : UInt32) :
    (b.counts.count target < 2 ^ 32 - 1 → (b.cell? p (.list target) v = none ↔
      1 ≤ v.toNat ∧ v.toNat ≤ b.counts.count target + 1)) ∧
    (b.cell? p (.list target) v = none →
      readNumber? (if b.counts.count target < 2 ^ 16 then 2 else 4)
          ((Cells.cons v .nil : Cells [⟨p.column, .list target⟩]).encode b.counts) =
        some (if b.counts.count target = 65535 ∧ v.toNat = 65536 then 0 else v.toNat, [])) ∧
    ∀ {ts : Tables} {heaps : HeapSizes} {bytes : Bytes}, ts.stream heaps = .ok bytes →
      (∀ t, ts.rowCount t < 2 ^ 32) → ∃ view, RowNumbers.read? bytes = some view ∧
        ∀ place name, ts.cellAt? place = some ⟨⟨name, .list target⟩, v⟩ →
          view.at? place =
            some (if ts.rowCount target = 65535 ∧ v.toNat = 65536 then 0 else v.toNat) := by
  refine ⟨fun _ => b.cell?_eq_none_iff p (.list target) v, readNumber?_encode_list, ?_⟩
  intro ts heaps bytes hstream hrows
  refine ⟨_, ts.read?_rowNumbers hstream hrows, fun place name hcell => ?_⟩
  exact ts.at?_list hstream hcell

/-- The lists of two types, of which the second has the only method. -/
theorem at?_list_derivedType :
    ∃ bytes view, Tables.derivedType.stream ⟨16, 4, 0⟩ = .ok bytes ∧
      (Tables.derivedType.bounds ⟨16, 4, 0⟩).cell? ⟨"TypeDef", 2, "MethodList"⟩ (.list .methodDef)
        1 = none ∧
      RowNumbers.read? bytes = some view ∧ view.at? ⟨.typeDef, 2, 5⟩ = some 1 := by
  have hstream : Tables.derivedType.stream ⟨16, 4, 0⟩ = .ok _ := rfl
  have hrows : ∀ t, Tables.derivedType.rowCount t < 2 ^ 32 := by
    intro t
    cases t <;> decide
  obtain ⟨haccepted, -, hstreams⟩ := readNumber?_list_and_at?_list
    (Tables.derivedType.bounds ⟨16, 4, 0⟩) ⟨"TypeDef", 2, "MethodList"⟩ .methodDef 1
  obtain ⟨view, hread, hlist⟩ := hstreams hstream hrows
  exact ⟨_, view, hstream, (haccepted (by decide)).2 ⟨le_rfl, Nat.le_add_left 1 _⟩, hread,
    hlist ⟨.typeDef, 2, 5⟩ "MethodList" rfl⟩

/-! ## A full table -/

/-- A type whose fields start one past the end of a table of 65535 fields. -/
def Tables.fullFields : Tables :=
  let fields : Array (Row .field) := Array.replicate 65535 blankField
  (Tables.push (Tables.empty.modify .field fun _ => fields) (Row.typeDef 0 65536 1)).2
where
  /-- A field without name and signature. -/
  blankField : Row .field := .cons (0 : UInt16) <| .cons (0 : UInt32) <| .cons (0 : UInt32) .nil

namespace Tables

theorem get_fullFields_field : fullFields.get .field = Array.replicate 65535 fullFields.blankField := by
  rw [fullFields, get_push_of_ne _ (by decide)]
  exact RowStore.get_modify_self _ (Table.mem_all .field) _

theorem get_fullFields_typeDef : fullFields.get .typeDef = #[Row.typeDef 0 65536 1] := by
  rw [fullFields, get_push_self, RowStore.get_modify_of_ne _ (by decide)]
  exact congrArg (Array.push · _) (get_empty .typeDef)

theorem get_fullFields_of_ne {t : Table} (hfield : t ≠ .field) (htype : t ≠ .typeDef) :
    fullFields.get t = #[] := by
  rw [fullFields, get_push_of_ne _ htype, RowStore.get_modify_of_ne _ hfield]
  exact get_empty t

theorem rowCount_fullFields_field : fullFields.rowCount .field = 65535 := by
  rw [rowCount, get_fullFields_field, Array.size_replicate]

/-- Every cell passes its check. -/
theorem resolves_fullFields : fullFields.Resolves ⟨1, 1, 0⟩ := by
  rw [Resolves, forall_cellAt?_iff]
  intro t row hrow e he
  by_cases hfield : t = .field
  · subst hfield
    rw [get_fullFields_field, Array.toList_replicate] at hrow
    obtain rfl := List.eq_of_mem_replicate hrow
    simp only [fullFields.blankField, Cells.entries, List.mem_cons, List.not_mem_nil,
      or_false] at he
    rcases he with rfl | rfl | rfl
    · trivial
    · exact .inl rfl
    · exact .inl rfl
  · by_cases htype : t = .typeDef
    · subst htype
      rw [get_fullFields_typeDef] at hrow
      obtain rfl := List.mem_singleton.1 hrow
      simp only [Row.typeDef, Cells.entries, List.mem_cons, List.not_mem_nil, or_false] at he
      rcases he with rfl | rfl | rfl | rfl | rfl | rfl
      · trivial
      · exact .inl rfl
      · exact .inl rfl
      · intro index h
        cases h
      · refine ⟨by decide, ?_⟩
        rw [rowCount_fullFields_field]
        exact le_rfl
      · exact ⟨le_rfl, Nat.le_add_left 1 _⟩
    · rw [get_fullFields_of_ne hfield htype] at hrow
      cases hrow

theorem rowCount_fullFields_lt (t : Table) : fullFields.rowCount t < 2 ^ 32 := by
  by_cases hfield : t = .field
  · subst hfield
    rw [rowCount_fullFields_field]
    norm_num
  · by_cases htype : t = .typeDef
    · subst htype
      rw [rowCount, get_fullFields_typeDef]
      decide
    · rw [rowCount, get_fullFields_of_ne hfield htype]
      exact Nat.two_pow_pos 32

/-- The start of a list of fields is accepted, and another number is read. -/
theorem at?_list_fullFields :
    fullFields.cellAt? ⟨.typeDef, 1, 4⟩ = some ⟨⟨"FieldList", .list .field⟩, (65536 : UInt32)⟩ ∧
      ∃ bytes view, fullFields.stream ⟨1, 1, 0⟩ = .ok bytes ∧
        RowNumbers.read? bytes = some view ∧ view.at? ⟨.typeDef, 1, 4⟩ = some 0 := by
  have hcell : fullFields.cellAt? ⟨.typeDef, 1, 4⟩ =
      some ⟨⟨"FieldList", .list .field⟩, (65536 : UInt32)⟩ := by
    rw [cellAt?, row?, get_fullFields_typeDef]
    rfl
  have hstream := (fullFields.stream_eq_ok_iff ⟨1, 1, 0⟩ _).2 ⟨resolves_fullFields, rfl⟩
  refine ⟨hcell, _, _, hstream, fullFields.read?_rowNumbers hstream rowCount_fullFields_lt, ?_⟩
  rw [fullFields.at?_list hstream hcell, rowCount_fullFields_field]
  rfl

end Tables

end QuillImage.Metadata
