import Mathlib.Tactic
import QuillImage.Image.Manifest
import QuillImage.Proofs.Metadata.Database
import QuillImage.Proofs.Metadata.Root

/-!
# The contents of a manifest

The metadata of an image written out: the names and binary values in the order in
which they are inserted, the row of each table, and the tokens that the code refers
to (`Manifest.build_eq`). The row of the main method gets its address later
(`Manifest.bindMain_eq`). The size of the metadata is that of its names and of parts that are
the same for all images (`Manifest.storedSize_contents`). As long as it fits a word, every
cell leads to something (`Manifest.resolves_tables`), and the metadata is laid out and read
back (`Manifest.exists_layout`).
-/

namespace QuillImage.Image

open Metadata

namespace Manifest

variable (o : Options) (moduleName : String) (guid : Guid) (rva : Option UInt32)

/-! ## Heaps -/

/-- The names of a manifest in the order of their insertion. -/
def names : List String :=
  [moduleName ++ o.outputSuffix, moduleName, "<Module>", o.runtimeLibrary, "Console", "System",
    "WriteLine", "Main"]

/-- The binary values of a manifest in the order of their insertion. -/
def blobs : List Bytes := [o.runtimeKeyToken.bytes, writeLineSignature, mainSignature]

/-- The entry of a binary value that is not too long. -/
def storedBlob (blob : Bytes) : Bytes := UInt8.ofNat blob.length :: blob

/-- The entry of the greeting: eleven code units of two bytes each. -/
def greetingEntry : Bytes :=
  [23, 72, 0, 101, 0, 108, 0, 108, 0, 111, 0, 32, 0, 87, 0, 111, 0, 114, 0, 108, 0, 100, 0, 0]

/-- The token of the greeting. -/
def greetingToken : UInt32 := 0x70000004

/-- The token of the method that writes a line. -/
def writeLineToken : UInt32 := 0x0a000001

/-- The token of the main method. -/
def mainToken : UInt32 := 0x06000001

/-- The heap that holds the first `n` names. -/
def namesHeap (n : Nat) : Heap :=
  Heap.initial.insertAll (((names o moduleName).map stringEntry).take n)

/-- The heap that holds the first `n` binary values. -/
def blobsHeap (n : Nat) : Heap := Heap.initial.insertAll (((blobs o).map storedBlob).take n)

/-- The offset of a name. -/
def nameOffset (n : Nat) : UInt32 := UInt32.ofNat (namesHeap o moduleName n).size

/-- The offset of a binary value. -/
def blobOffset (n : Nat) : UInt32 := UInt32.ofNat (blobsHeap o n).size

/-- The heaps of a manifest. -/
def heaps : Heaps where
  strings := namesHeap o moduleName 8
  userStrings := Heap.initial.insertAll [greetingEntry]
  blobs := blobsHeap o 3
  guids := Heap.empty.insertAll [guid.stored]

/-! ## Rows -/

theorem assemblyRef_isCandidate :
    some Table.assemblyRef ∈ CodedKind.resolutionScope.candidates := by
  decide

theorem typeRef_isCandidate : some Table.typeRef ∈ CodedKind.memberRefParent.candidates := by
  decide

/-- The row that each table of a manifest has, if it has one. -/
def rowOf? : (t : Table) → Option (Row t)
  | .module => some (Row.module (nameOffset o moduleName 0) 1)
  | .typeRef => some (Row.typeRef ⟨.assemblyRef, 1, assemblyRef_isCandidate⟩
      (nameOffset o moduleName 4) (nameOffset o moduleName 5))
  | .typeDef => some (Row.typeDef (nameOffset o moduleName 2) 1 1)
  | .methodDef => some (mainRow rva (nameOffset o moduleName 7) (blobOffset o 2))
  | .memberRef => some (Row.memberRef ⟨.typeRef, 1, typeRef_isCandidate⟩
      (nameOffset o moduleName 6) (blobOffset o 1))
  | .assembly => some (Row.assembly hashAlgorithm ⟨0, 0, 0, 0⟩ (nameOffset o moduleName 1))
  | .assemblyRef => some (Row.assemblyRef o.runtimeVersion (blobOffset o 0)
      (nameOffset o moduleName 3))
  | _ => none

/-- Appends the row of a table, if it has one. -/
def pushRow (ts : Tables) (t : Table) : Tables :=
  match rowOf? o moduleName rva t with
  | some row => (ts.push row).2
  | none => ts

/-- The tables of a manifest, in the order of the insertion of their rows. -/
def tables : Tables :=
  [Table.module, .assembly, .typeDef, .assemblyRef, .typeRef, .memberRef, .methodDef].foldl
    (pushRow o moduleName rva) Tables.empty

/-- The bytes of the tables of a manifest. -/
def tableBytes : Bytes :=
  (tables o moduleName rva).streamHeader ++ (tables o moduleName rva).streamCounts ++
    (tables o moduleName rva).streamRows

/-- The database of a manifest. -/
def contents : Database :=
  ⟨o.metadataVersion, heaps o moduleName guid, tables o moduleName rva⟩

/-- A manifest before the address of the main method is known. -/
def unbound : Manifest where
  database := contents o moduleName guid none
  greeting := greetingToken
  writeLine := writeLineToken
  main := 1

/-- A manifest can be built for every module. -/
theorem build_eq : build o moduleName guid = .ok (unbound o moduleName guid) := by
  have hkey : blobEntry o.runtimeKeyToken.bytes = .ok (storedBlob o.runtimeKeyToken.bytes) := by
    refine if_neg ?_
    rw [o.runtimeKeyToken.length_bytes]
    decide
  have hwrite : blobEntry writeLineSignature = .ok (storedBlob writeLineSignature) := rfl
  have hmain : blobEntry mainSignature = .ok (storedBlob mainSignature) := rfl
  have hgreeting : userStringEntry Image.greeting = .ok greetingEntry := rfl
  simp only [build, Database.addString_mk, Database.addGuid_mk, Database.addRow_mk,
    Database.addRowToken_mk, Database.addBlob_mk _ _ _ _ _ _ hkey,
    Database.addBlob_mk _ _ _ _ _ _ hwrite, Database.addBlob_mk _ _ _ _ _ _ hmain,
    Database.addUserString_mk _ _ _ _ _ _ hgreeting, bind, Except.bind]
  simp only [Tables.get_push_of_ne, Tables.get_empty, ne_eq, reduceCtorEq, not_false_eq_true,
    Array.size_empty, Nat.zero_add]
  have hliteral : 0x70000000 ||| UInt32.ofNat Heap.initial.size = greetingToken := by decide
  have htoken : Table.memberRef.token (UInt32.ofNat 1) = writeLineToken := by decide
  have hmvid : UInt32.ofNat Heap.empty.size / 16 + 1 = 1 := by decide
  rw [hliteral, htoken, hmvid]
  rfl

/-- Each table has its row and no other. -/
theorem toList_get_tables (t : Table) :
    ((tables o moduleName rva).get t).toList = (rowOf? o moduleName rva t).toList := by
  cases t <;>
    simp only [tables, List.foldl_cons, List.foldl_nil, pushRow, rowOf?, Tables.get_push_of_ne,
      Tables.get_push_self, Tables.get_empty, ne_eq, reduceCtorEq, not_false_eq_true] <;>
    rfl

/-- The row of a table stands at the first position. -/
theorem row?_tables (t : Table) :
    (tables o moduleName rva).row? t 1 = rowOf? o moduleName rva t := by
  have h : (tables o moduleName rva).row? t 1 =
      ((tables o moduleName rva).get t).toList[0]? := by
    simp [Tables.row?]
  rw [h, toList_get_tables]
  cases rowOf? o moduleName rva t <;> rfl

/-- The address of the main method is filled in. -/
theorem bindMain_eq (mainRva : UInt32) :
    (unbound o moduleName guid).bindMain mainRva = contents o moduleName guid (some mainRva) := by
  have hrow : (tables o moduleName none).row? .methodDef 1 =
      some (mainRow none (nameOffset o moduleName 7) (blobOffset o 2)) := row?_tables _ _ _ _
  have hset : (tables o moduleName none).setRow? 1
      (mainRow (some mainRva) (nameOffset o moduleName 7) (blobOffset o 2)) =
        some (tables o moduleName (some mainRva)) := by
    obtain ⟨ts, hts, hempty⟩ : ∃ ts : Tables, (∀ rva, tables o moduleName rva =
        (ts.push (mainRow rva (nameOffset o moduleName 7) (blobOffset o 2))).2) ∧
          (ts.get .methodDef).size = 0 := by
      refine ⟨[Table.module, .assembly, .typeDef, .assemblyRef, .typeRef, .memberRef].foldl
        (pushRow o moduleName none) Tables.empty, fun _ => rfl, ?_⟩
      simp only [List.foldl_cons, List.foldl_nil, pushRow, rowOf?, Tables.get_push_of_ne, Tables.get_empty, ne_eq, reduceCtorEq,
        not_false_eq_true, Array.size_empty]
    have hpush := ts.setRow?_push (mainRow none (nameOffset o moduleName 7) (blobOffset o 2))
      (mainRow (some mainRva) (nameOffset o moduleName 7) (blobOffset o 2))
    rwa [hempty, ← hts, ← hts] at hpush
  have hfound : (contents o moduleName guid none).row? .methodDef 1 =
      some (mainRow none (nameOffset o moduleName 7) (blobOffset o 2)) := hrow
  have hchanged : (contents o moduleName guid none).setRow? 1
      (mainRow (some mainRva) (nameOffset o moduleName 7) (blobOffset o 2)) =
        some (contents o moduleName guid (some mainRva)) := congrArg (Option.map _) hset
  simp only [bindMain, unbound, hfound]
  change Option.getD ((contents o moduleName guid none).setRow? 1
    (mainRow (some mainRva) (nameOffset o moduleName 7) (blobOffset o 2))) _ = _
  rw [hchanged, Option.getD_some]

/-- The number of rows of each table of a manifest. -/
def rowCounts : Table → Nat
  | .module | .typeRef | .typeDef | .methodDef | .memberRef | .assembly | .assemblyRef => 1
  | _ => 0

theorem rowCount_tables : (tables o moduleName rva).rowCount = rowCounts := by
  funext t
  have h : (tables o moduleName rva).rowCount t =
      ((tables o moduleName rva).get t).toList.length := rfl
  rw [h, toList_get_tables]
  cases t <;> rfl

/-! ## Offsets -/

/-- The size of a name in its heap. -/
def nameSize (s : String) : Nat := alignUp ((utf8 s).length + 1) 4

theorem size_strings :
    (heaps o moduleName guid).strings.size = 4 + total ((names o moduleName).map nameSize) := by
  have h := Heap.size_insertAll (h := Heap.initial) rfl ((names o moduleName).map stringEntry)
  rw [List.map_map] at h
  refine h.trans (congrArg (fun n => 4 + total n) (List.map_congr_left fun s _ => ?_))
  simp [stringEntry, nameSize]

theorem size_blobs : (heaps o moduleName guid).blobs.size = 28 := by
  have h := Heap.size_insertAll (h := Heap.initial) rfl ((blobs o).map storedBlob)
  refine h.trans ?_
  simp only [blobs, storedBlob, List.map_cons, List.map_nil, List.length_cons,
    o.runtimeKeyToken.length_bytes]
  rfl

theorem length_stored : guid.stored.length = 16 := by
  simp [Guid.stored, guid.length_bytes]

theorem size_guids : (heaps o moduleName guid).guids.size = 16 := by
  have h := Heap.size_insertAll (h := Heap.empty) rfl [guid.stored]
  refine h.trans ?_
  rw [List.map_cons, length_stored]
  rfl

/-- Each binary value stands at its offset. -/
theorem exists_skip?_blobs {n : Nat} {blob : Bytes} (hn : (blobs o)[n]? = some blob) :
    ∃ rest, skip? (blobOffset o n).toNat (heaps o moduleName guid).blobs.bytes =
      some (storedBlob blob ++ rest) := by
  have hentry : ((blobs o).map storedBlob)[n]? = some (storedBlob blob) := by
    rw [List.getElem?_map, hn]
    rfl
  have hsize : (heaps o moduleName guid).blobs.size < 2 ^ 32 := by
    rw [size_blobs]
    norm_num
  exact Heap.exists_skip?_toNat_insertAll Heap.initial hentry (List.cons_ne_nil _ _) hsize

variable {o moduleName guid}

/-- Each name stands at its offset. -/
theorem exists_skip?_names (hsize : (heaps o moduleName guid).strings.size < 2 ^ 32) {n : Nat}
    {s : String} (hn : (names o moduleName)[n]? = some s) :
    ∃ rest, skip? (nameOffset o moduleName n).toNat (heaps o moduleName guid).strings.bytes =
      some (stringEntry s ++ rest) := by
  have hentry : ((names o moduleName).map stringEntry)[n]? = some (stringEntry s) := by
    rw [List.getElem?_map, hn]
    rfl
  have hne : stringEntry s ≠ [] := by simp [stringEntry]
  exact Heap.exists_skip?_toNat_insertAll Heap.initial hentry hne hsize

/-- The offset of a name leads into the heap, even if it was cut to a word. -/
theorem toNat_nameOffset_lt {n : Nat} (hn : n < 8) :
    (nameOffset o moduleName n).toNat < (heaps o moduleName guid).strings.size := by
  have hentry : ((names o moduleName).map stringEntry)[n]? =
      some (stringEntry ((names o moduleName).get ⟨n, hn⟩)) := by
    rw [List.getElem?_map, List.getElem?_eq_getElem hn]
    rfl
  obtain ⟨rest, hskip⟩ := Heap.exists_skip?_insertAll Heap.initial hentry
  exact (Nat.mod_le _ _).trans_lt (lt_length_of_skip? hskip (by simp [stringEntry]))

/-! ## Sizes -/

section Sizes

variable (o moduleName guid)

/-- The size of the metadata of an image: the version text, the names, and the parts
that all images have. -/
def metadataSize : Nat :=
  356 + nameSize o.metadataVersion + total ((names o moduleName).map nameSize)

theorem metadataSize_mod_four : metadataSize o moduleName % 4 = 0 := by
  simp only [metadataSize, names, List.map_cons, List.map_nil, total, nameSize, alignUp]
  omega

theorem size_strings_le :
    (heaps o moduleName guid).strings.size ≤ metadataSize o moduleName := by
  rw [size_strings, metadataSize]
  omega

theorem rowCounts_le_one (t : Table) : rowCounts t ≤ 1 := by
  cases t <;> decide

theorem streamSize_rowCounts : Tables.streamSize rowCounts = 182 := by
  decide

theorem tables_contents : (contents o moduleName guid rva).tables = tables o moduleName rva := by
  rw [contents]

/-- The size of the metadata follows from the sizes of the heaps and tables. -/
theorem storedSize_contents :
    (contents o moduleName guid rva).storedSize = metadataSize o moduleName := by
  have hversion : (Bytes.padded 4 (utf8 o.metadataVersion ++ [0])).length =
      nameSize o.metadataVersion := by
    rw [length_padded (by norm_num), List.length_append, List.length_singleton]
    rfl
  have hheaders : total (streamNames.map Stream.headerSize) = 76 := by
    decide
  have hheaps : (contents o moduleName guid rva).storedSize =
      firstOffset (Bytes.padded 4 (utf8 o.metadataVersion ++ [0])) +
        ((heaps o moduleName guid).strings.size + (28 + ((heaps o moduleName guid).blobs.size +
          ((heaps o moduleName guid).guids.size + (alignUp (Tables.streamSize
            (contents o moduleName guid rva).tables.rowCount) 4 + 0))))) := rfl
  have htables : alignUp 182 4 = 184 := rfl
  rw [hheaps, tables_contents, rowCount_tables, streamSize_rowCounts, htables, firstOffset,
    Layout.rootSize, hversion, hheaders, size_strings, size_blobs, size_guids, metadataSize]
  omega

/-- The sizes that the rows are checked against are those of the heaps, as long as the size of
the metadata fits a word. -/
theorem heapSizes_contents (h : metadataSize o moduleName < 2 ^ 32) :
    (contents o moduleName guid rva).heapSizes =
      ⟨(heaps o moduleName guid).strings.size, (heaps o moduleName guid).blobs.size, 1⟩ := by
  have hblobs : (heaps o moduleName guid).blobs.size < 2 ^ 32 := by
    rw [size_blobs]
    norm_num
  have hguids : (heaps o moduleName guid).guids.size < 2 ^ 32 := by
    rw [size_guids]
    norm_num
  have hone : (heaps o moduleName guid).guids.size / 16 = 1 := by
    rw [size_guids]
  rw [← hone]
  exact Database.heapSizes_of_lt ((size_strings_le o moduleName guid).trans_lt h) hblobs hguids

end Sizes

/-! ## Layout -/

section Layout

variable (guid : Guid) (mainRva : UInt32) (h : metadataSize o moduleName < 2 ^ 32)
include h

/-- Every cell leads to something. -/
theorem resolves_tables : (tables o moduleName (some mainRva)).Resolves
    (contents o moduleName guid (some mainRva)).heapSizes := by
  have hname : ∀ n < 8, (nameOffset o moduleName n).toNat <
      (heaps o moduleName guid).strings.size := fun n hn => toNat_nameOffset_lt hn
  have hblob : ∀ n < 3, (blobOffset o n).toNat < (heaps o moduleName guid).blobs.size := by
    intro n hn
    obtain ⟨rest, hskip⟩ := exists_skip?_blobs o moduleName guid (List.getElem?_eq_getElem hn)
    exact lt_length_of_skip? hskip (List.cons_ne_nil _ _)
  refine (tables o moduleName (some mainRva)).forall_cellAt?_iff.2 fun t row hrow => ?_
  rw [toList_get_tables, Option.mem_toList] at hrow
  rw [rowCount_tables, heapSizes_contents _ _ _ _ h]
  cases t with
  | module =>
    obtain rfl := Option.some.inj hrow
    simp [Row.module, Cells.entries, Entry.Resolves, ColumnType.Resolves, hname]
  | typeRef =>
    obtain rfl := Option.some.inj hrow
    simp [Row.typeRef, Cells.entries, Entry.Resolves, ColumnType.Resolves, CodedIndex.Resolves,
      rowCounts, hname]
  | typeDef =>
    obtain rfl := Option.some.inj hrow
    simp [Row.typeDef, Cells.entries, Entry.Resolves, ColumnType.Resolves, hname]
  | methodDef =>
    obtain rfl := Option.some.inj hrow
    simp [mainRow, Row.methodDef, Cells.entries, Entry.Resolves, ColumnType.Resolves, hname, hblob]
  | memberRef =>
    obtain rfl := Option.some.inj hrow
    simp [Row.memberRef, Cells.entries, Entry.Resolves, ColumnType.Resolves, CodedIndex.Resolves,
      rowCounts, hname, hblob]
  | assembly =>
    obtain rfl := Option.some.inj hrow
    simp [Row.assembly, Cells.entries, Entry.Resolves, ColumnType.Resolves, hname]
  | assemblyRef =>
    obtain rfl := Option.some.inj hrow
    simp [Row.assemblyRef, Cells.entries, Entry.Resolves, ColumnType.Resolves, hname, hblob]
  | _ => cases hrow

/-- The metadata of an image is laid out. The bytes of its tables do not depend on the
identifier of the module. -/
theorem exists_places : ∃ l, (contents o moduleName guid (some mainRva)).layout = .ok l ∧
    l.Places (contents o moduleName guid (some mainRva))
      (tableBytes o moduleName (some mainRva)) := by
  have hstream : (contents o moduleName guid (some mainRva)).tables.stream
      (contents o moduleName guid (some mainRva)).heapSizes =
        .ok (tableBytes o moduleName (some mainRva)) := by
    rw [tables_contents]
    exact (Tables.stream_eq_ok_iff _ _ _).2 ⟨resolves_tables guid mainRva h, rfl⟩
  refine Database.exists_layout hstream ?_
  rwa [storedSize_contents]

/-- The metadata of an image is read back. -/
theorem exists_layout : ∃ l, (contents o moduleName guid (some mainRva)).layout = .ok l ∧
    l.bytes.length = metadataSize o moduleName ∧
      l.size = UInt32.ofNat (metadataSize o moduleName) ∧
        LoadedMetadata.read? l.bytes =
          some (contents o moduleName guid (some mainRva)).loaded := by
  have hrows : ∀ t, (contents o moduleName guid (some mainRva)).tables.rowCount t ≤ 1 := by
    rw [tables_contents, rowCount_tables]
    exact rowCounts_le_one
  have hends : ∀ t, (contents o moduleName guid (some mainRva)).tables.rowCount t ≠ 65535 :=
    fun t => ((hrows t).trans_lt (by norm_num)).ne
  obtain ⟨l, hl, hplaces⟩ := exists_places guid mainRva h
  have hstored := storedSize_contents o moduleName guid (some mainRva)
  have hlt := hstored.trans_lt h
  have hsize : l.size.toNat = metadataSize o moduleName := (hplaces.toNat_size hlt).trans hstored
  refine ⟨l, hl, hplaces.length_bytes.trans hstored, ?_,
    LoadedMetadata.read?_layout hplaces hlt ?_ ?_⟩
  · rw [← hsize, UInt32.ofNat_toNat]
  · exact fun t => (hrows t).trans_lt (by norm_num)
  · exact fun p e _ => e.not_isWideEnd hends

end Layout

end Manifest

end QuillImage.Image
