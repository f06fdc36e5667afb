import Mathlib.Tactic
import QuillImage.Proofs.Halting
import QuillImage.Proofs.Metadata.Database
import QuillImage.Proofs.Metadata.Heap

/-!
# Reading the metadata root

A reader of metadata that knows nothing but the bytes. The front of metadata is the root,
with the version text, and a header for each stream: `readFront?` reads all of it and
nothing of the streams, which are then cut out at the offsets that the headers name
(`readRoot?`).

The offsets in a layout are sums of words. They are those of the bytes as long as the whole
has less than `2 ^ 32` of them (`Database.storedSize`, `Layout.Places.exists_skip?_data`).

Main statement: from the bytes of a database that is laid out the reader gets the
four heaps and the tables of the database (`LoadedMetadata.read?_layout`).
-/

namespace QuillImage.Metadata

/-! ## The reader -/

/-- What a header says about a stream. -/
structure StreamHeader where
  name : Bytes
  offset : Nat
  size : Nat
  deriving DecidableEq

/-- Reads a stream header. -/
def StreamHeader.read? (bs : Bytes) : Option (StreamHeader × Bytes) := do
  let (offset, bs) ← readNumber? 4 bs
  let (size, bs) ← readNumber? 4 bs
  let (name, _) ← readText? bs
  let bs ← skip? (alignUp (name.length + 1) 4) bs
  return (⟨name, offset, size⟩, bs)

/-- The bytes that a header describes. -/
def StreamHeader.cut? (h : StreamHeader) (metadata : Bytes) : Option Bytes := do
  let (data, _) ← readBytes? h.size (← skip? h.offset metadata)
  return data

/-- The front of metadata. -/
structure Front where
  /-- The version text with its padding. -/
  version : Bytes
  headers : List StreamHeader

/-- Reads the front of metadata, up to the end of the last header. -/
def readFront? (metadata : Bytes) : Option (Front × Bytes) := do
  let (signature, bs) ← readBytes? 4 metadata
  let (major, bs) ← readNumber? 2 bs
  let (minor, bs) ← readNumber? 2 bs
  let (reserved, bs) ← readNumber? 4 bs
  guard (signature = utf8 "BSJB" ∧ major = 1 ∧ minor = 1 ∧ reserved = 0)
  let (size, bs) ← readNumber? 4 bs
  let (version, bs) ← readBytes? size bs
  let (flags, bs) ← readNumber? 2 bs
  guard (flags = 0)
  let (count, bs) ← readNumber? 2 bs
  let (headers, bs) ← readList? StreamHeader.read? count bs
  return (⟨version, headers⟩, bs)

/-- Reads the front of metadata, and gives back the streams with their names. -/
def readRoot? (metadata : Bytes) : Option (List (Bytes × Bytes)) := do
  let (front, _) ← readFront? metadata
  front.headers.mapM fun h => (h.cut? metadata).map fun data => (h.name, data)

/-- The heaps and tables of metadata. -/
structure LoadedMetadata where
  strings : Bytes
  userStrings : Bytes
  blobs : Bytes
  guids : Bytes
  tables : Tables

/-- Reads the heaps and tables of metadata. -/
def LoadedMetadata.read? (metadata : Bytes) : Option LoadedMetadata := do
  let streams ← readRoot? metadata
  let strings ← streams.lookup (utf8 "#Strings")
  let userStrings ← streams.lookup (utf8 "#US")
  let blobs ← streams.lookup (utf8 "#Blob")
  let guids ← streams.lookup (utf8 "#GUID")
  let (tables, _) ← Tables.readStream? (← streams.lookup (utf8 "#~"))
  return { strings, userStrings, blobs, guids, tables }

theorem mapM_eq_some {α β : Type} {f : α → Option β} {g : α → β} {as : List α}
    (h : ∀ a ∈ as, f a = some (g a)) : as.mapM f = some (as.map g) := by
  induction as with
  | nil => rfl
  | cons a as ih =>
    obtain ⟨ha, has⟩ := List.forall_mem_cons.1 h
    rw [List.mapM_cons, ha, ih has]
    rfl

/-! ## Streams in their places -/

namespace Stream

theorem length_header (s : Stream) : s.header.length = headerSize s.name := by
  simp only [header, headerSize, List.length_append, length_word32,
    length_padded (show 0 < 4 by norm_num), List.length_singleton]

/-- The header of a stream, as it is read. -/
def entry (s : Stream) : StreamHeader := ⟨utf8 s.name, s.offset.toNat, s.size.toNat⟩

/-- The name in a header ends at its zero byte, and the padding is passed over. -/
theorem readText?_name {name : String} (h : 0 ∉ utf8 name) (rest : Bytes) :
    ∃ rest', readText? (Bytes.padded 4 (utf8 name ++ [0]) ++ rest) = some (utf8 name, rest') ∧
      skip? (alignUp ((utf8 name).length + 1) 4) (Bytes.padded 4 (utf8 name ++ [0]) ++ rest) =
        some rest := by
  have hpadded : ∃ k, Bytes.padded 4 (utf8 name ++ [0]) = utf8 name ++ 0 :: zeros k :=
    ⟨_, by rw [Bytes.padded, Bytes.padTo, List.append_assoc, List.singleton_append]⟩
  obtain ⟨k, hk⟩ := hpadded
  refine ⟨zeros k ++ rest, ?_, skip?_append ?_ rest⟩
  · rw [hk, List.append_assoc, List.cons_append, readText?_append h]
  · rw [length_padded (by norm_num), List.length_append, List.length_singleton]

theorem read?_header {s : Stream} (hname : 0 ∉ utf8 s.name) (rest : Bytes) :
    StreamHeader.read? (s.header ++ rest) = some (s.entry, rest) := by
  obtain ⟨_, htext, hskip⟩ := readText?_name hname rest
  simp only [header, List.append_assoc, StreamHeader.read?, Option.bind_eq_bind, Option.bind_some,
    readNumber?_word32, htext, hskip]
  rfl

section Place

variable {offset stop : UInt32} {payloads : List (String × Bytes)} {streams : List Stream}

/-- The first of several streams starts at the offset, and the next one where it ends. -/
theorem exists_of_place_cons {p : String × Bytes}
    (h : place offset (p :: payloads) = .ok (streams, stop)) :
    ∃ next rest, offset.toNat + (UInt32.ofNat p.2.length).toNat = next.toNat ∧
      place next payloads = .ok (rest, stop) ∧ streams = ⟨p.1, offset, p.2⟩ :: rest := by
  obtain ⟨next, hnext, h⟩ := exists_of_bind_eq_ok h
  obtain ⟨⟨rest, stop'⟩, hrest, h⟩ := exists_of_bind_eq_ok h
  cases h
  exact ⟨next, rest, addWords_eq_ok_iff.1 hnext, hrest, rfl⟩

/-- Nothing is done to names and contents. -/
theorem map_place (h : place offset payloads = .ok (streams, stop)) :
    (streams.map fun s => (s.name, s.data)) = payloads := by
  induction payloads generalizing offset streams with
  | nil =>
    cases h
    rfl
  | cons p payloads ih =>
    obtain ⟨next, rest, -, hrest, rfl⟩ := exists_of_place_cons h
    rw [List.map_cons, ih hrest]

theorem map_name_place (h : place offset payloads = .ok (streams, stop)) :
    streams.map name = payloads.map Prod.fst := by
  rw [← map_place h, List.map_map]
  rfl

/-- The headers take the size that is set aside for them. -/
theorem length_flatMap_header (h : place offset payloads = .ok (streams, stop)) :
    (streams.flatMap header).length = total (payloads.map fun p => headerSize p.1) := by
  rw [length_flatMap_eq_total, funext length_header, ← map_place h, List.map_map]
  rfl

theorem length_flatMap_data (h : place offset payloads = .ok (streams, stop)) :
    (streams.flatMap (·.data)).length = total (payloads.map fun p => p.2.length) := by
  rw [length_flatMap_eq_total, ← map_place h, List.map_map]
  rfl

/-- Streams are placed when the last one ends before `2 ^ 32`. -/
theorem exists_place (hlt : offset.toNat + total (payloads.map fun p => p.2.length) < 2 ^ 32) :
    ∃ streams stop, place offset payloads = .ok (streams, stop) := by
  induction payloads generalizing offset with
  | nil => exact ⟨_, _, rfl⟩
  | cons p payloads ih =>
    rw [List.map_cons, total] at hlt
    have hsize : (UInt32.ofNat p.2.length).toNat = p.2.length :=
      UInt32.toNat_ofNat_of_lt' (show p.2.length < 2 ^ 32 by omega)
    have hnext : (offset + UInt32.ofNat p.2.length).toNat = offset.toNat + p.2.length := by
      rw [UInt32.toNat_add, hsize, Nat.mod_eq_of_lt (by omega)]
    have hlt' : (offset + UInt32.ofNat p.2.length).toNat +
        total (payloads.map fun p => p.2.length) < 2 ^ 32 := by omega
    obtain ⟨rest, stop, hrest⟩ := ih hlt'
    rw [place, addWords_of_lt (by rw [size, hsize]; omega)]
    simp only [size, hrest, bind, Except.bind]
    exact ⟨_, _, rfl⟩

section Bounded

variable (h : place offset payloads = .ok (streams, stop))
  (hlt : offset.toNat + total (payloads.map fun p => p.2.length) < 2 ^ 32)
include h hlt

/-- The last stream ends where the sizes of all streams sum up to. -/
theorem toNat_stop : stop.toNat = offset.toNat + total (payloads.map fun p => p.2.length) := by
  induction payloads generalizing offset streams with
  | nil =>
    cases h
    rfl
  | cons p payloads ih =>
    obtain ⟨next, rest, hnext, hrest, rfl⟩ := exists_of_place_cons h
    rw [List.map_cons, total] at hlt ⊢
    rw [UInt32.toNat_ofNat_of_lt' (show p.2.length < 2 ^ 32 by omega)] at hnext
    rw [ih hrest (by omega)]
    omega

/-- A stream stands at its offset when the streams follow each other, and ends before
the last one does. -/
theorem exists_skip?_of_mem_place {front : Bytes} (hfront : front.length = offset.toNat)
    {s : Stream} (hs : s ∈ streams) :
    ∃ rest, skip? s.offset.toNat (front ++ streams.flatMap (·.data)) = some (s.data ++ rest) ∧
      s.offset.toNat + s.data.length ≤
        offset.toNat + total (payloads.map fun p => p.2.length) := by
  induction payloads generalizing front offset streams with
  | nil =>
    cases h
    cases hs
  | cons p payloads ih =>
    obtain ⟨next, rest, hnext, hrest, rfl⟩ := exists_of_place_cons h
    rw [List.map_cons, total] at hlt ⊢
    rw [UInt32.toNat_ofNat_of_lt' (show p.2.length < 2 ^ 32 by omega)] at hnext
    rw [List.flatMap_cons]
    rcases List.mem_cons.1 hs with rfl | hs
    · exact ⟨_, skip?_append hfront _, by dsimp only; omega⟩
    · have hfront' : (front ++ p.2).length = next.toNat := by
        rw [List.length_append, hfront, hnext]
      obtain ⟨tail, hskip, hle⟩ := ih hrest (by omega) hfront' hs
      rw [List.append_assoc] at hskip
      exact ⟨tail, hskip, by omega⟩

end Bounded

end Place

end Stream

/-! ## The layout of a database -/

/-- The names of the streams in their order. -/
def streamNames : List String := ["#Strings", "#US", "#Blob", "#GUID", "#~"]

/-- The offset of the first stream: the root and the stream headers come before it. -/
def firstOffset (version : Bytes) : Nat :=
  Layout.rootSize version + total (streamNames.map Stream.headerSize)

/-- The size of the stored form of a database: the root, the stream headers and the streams. -/
def Database.storedSize (db : Database) : Nat :=
  firstOffset (Bytes.padded 4 (utf8 db.version ++ [0])) +
    total [db.heaps.strings.size, db.heaps.userStrings.size, db.heaps.blobs.size,
      db.heaps.guids.size, alignUp (Tables.streamSize db.tables.rowCount) 4]

/-- The layout has the streams of the database in their places. -/
structure Layout.Places (l : Layout) (db : Database) (tables : Bytes) : Prop where
  stream : db.tables.stream db.heapSizes = .ok tables
  version : l.version = Bytes.padded 4 (utf8 db.version ++ [0])
  place : Stream.place (UInt32.ofNat (firstOffset l.version)) (db.payloads tables) =
    .ok (l.streams, l.size)

namespace Database

variable {db : Database} {tables : Bytes}

/-- The sizes of the streams follow from those of the heaps and from the row counts. -/
theorem total_payloads (h : db.tables.stream db.heapSizes = .ok tables) :
    total ((db.payloads tables).map fun p => p.2.length) =
      total [db.heaps.strings.size, db.heaps.userStrings.size, db.heaps.blobs.size,
        db.heaps.guids.size, alignUp (Tables.streamSize db.tables.rowCount) 4] := by
  have hlength : (Bytes.padded 4 tables).length =
      alignUp (Tables.streamSize db.tables.rowCount) 4 := by
    rw [length_padded (by norm_num), Tables.length_of_stream_eq_ok h]
  rw [← hlength]
  rfl

/-- What a layout is made of. -/
theorem layout_of_stream (h : db.tables.stream db.heapSizes = .ok tables) :
    db.layout = (do
      let version := Bytes.padded 4 (utf8 db.version ++ [0])
      let r ← Stream.place (UInt32.ofNat (firstOffset version)) (db.payloads tables)
      .ok ⟨version, db.tables.validMask,
        db.tables.nonempty.map fun t => (t, db.tables.rowCount t), r.1, r.2⟩) := by
  rw [layout, h]
  rfl

theorem layout_of_stream_error {f : Failure} (h : db.tables.stream db.heapSizes = .error f) :
    db.layout = .error (.failure f) := by
  rw [layout, h]
  rfl

/-- A database is laid out when its tables are, as long as its size fits a word. -/
theorem exists_layout (h : db.tables.stream db.heapSizes = .ok tables)
    (hlt : db.storedSize < 2 ^ 32) : ∃ l, db.layout = .ok l ∧ l.Places db tables := by
  rw [storedSize, ← total_payloads h] at hlt
  have hstart : (UInt32.ofNat (firstOffset (Bytes.padded 4 (utf8 db.version ++ [0])))).toNat =
      firstOffset (Bytes.padded 4 (utf8 db.version ++ [0])) :=
    UInt32.toNat_ofNat_of_lt' (show _ < 2 ^ 32 by omega)
  rw [← hstart] at hlt
  obtain ⟨streams, stop, hplace⟩ := Stream.exists_place hlt
  rw [layout_of_stream h]
  simp only [hplace, bind, Except.bind]
  exact ⟨_, rfl, h, rfl, hplace⟩

/-- A layout comes from the bytes of the tables. -/
theorem exists_places {l : Layout} (h : db.layout = .ok l) : ∃ tables, l.Places db tables := by
  cases hstream : db.tables.stream db.heapSizes with
  | error reason =>
    rw [layout_of_stream_error hstream] at h
    cases h
  | ok tables =>
    rw [layout_of_stream hstream] at h
    obtain ⟨r, hplace, h⟩ := exists_of_bind_eq_ok h
    cases h
    exact ⟨tables, hstream, rfl, hplace⟩

end Database

namespace Layout

variable {l : Layout} {db : Database} {tables : Bytes}

theorem length_root (l : Layout) : l.root.length = rootSize l.version := by
  simp only [root, rootSize, List.length_append, length_littleEndian, length_zeros]

/-- The parts of the stored form. -/
theorem bytes_eq (l : Layout) :
    l.bytes = utf8 "BSJB" ++ (littleEndian 2 1 ++ (littleEndian 2 1 ++ (zeros 4 ++
      (littleEndian 4 l.version.length ++ (l.version ++ (zeros 2 ++ (littleEndian 2 5 ++
        (l.streams.flatMap Stream.header ++ l.streams.flatMap (·.data))))))))) := by
  have hsignature : littleEndian 4 0x424a5342 = utf8 "BSJB" := by decide
  simp only [bytes, root, hsignature, List.append_assoc]

namespace Places

variable (h : l.Places db tables)
include h

theorem map_streams : (l.streams.map fun s => (s.name, s.data)) = db.payloads tables :=
  Stream.map_place h.place

theorem map_name_streams : l.streams.map Stream.name = streamNames := by
  rw [Stream.map_name_place h.place]
  rfl

theorem length_streams : l.streams.length = 5 := by
  rw [← List.length_map Stream.name, h.map_name_streams]
  rfl

theorem zero_notMem_name {s : Stream} (hs : s ∈ l.streams) : 0 ∉ utf8 s.name := by
  have hnames : ∀ name ∈ streamNames, 0 ∉ utf8 name := by decide
  apply hnames
  rw [← h.map_name_streams]
  exact List.mem_map_of_mem hs

/-- The streams start after the root and the stream headers. -/
theorem length_front :
    (l.root ++ l.streams.flatMap Stream.header).length = firstOffset l.version := by
  rw [List.length_append, l.length_root, Stream.length_flatMap_header h.place]
  rfl

theorem storedSize_eq : db.storedSize =
    firstOffset l.version + total ((db.payloads tables).map fun p => p.2.length) := by
  rw [Database.storedSize, ← Database.total_payloads h.stream, h.version]

theorem length_bytes : l.bytes.length = db.storedSize := by
  rw [bytes, List.length_append, h.length_front, Stream.length_flatMap_data h.place,
    h.storedSize_eq]

theorem length_version_le : l.version.length ≤ db.storedSize := by
  rw [h.storedSize_eq, firstOffset, rootSize]
  omega

section Bounded

variable (hlt : db.storedSize < 2 ^ 32)
include hlt

theorem toNat_start : (UInt32.ofNat (firstOffset l.version)).toNat = firstOffset l.version := by
  rw [h.storedSize_eq] at hlt
  exact UInt32.toNat_ofNat_of_lt' (show _ < 2 ^ 32 by omega)

/-- The end of the last stream is that of the whole. -/
theorem start_add_total : (UInt32.ofNat (firstOffset l.version)).toNat +
    total ((db.payloads tables).map fun p => p.2.length) = db.storedSize := by
  rw [h.toNat_start hlt, h.storedSize_eq]

/-- The recorded size is the number of bytes. -/
theorem toNat_size : l.size.toNat = db.storedSize := by
  have hend := h.start_add_total hlt
  rw [← hend] at hlt ⊢
  exact Stream.toNat_stop h.place hlt

/-- Each stream stands at its offset, before the end of the whole. -/
theorem exists_skip?_data {s : Stream} (hs : s ∈ l.streams) :
    ∃ rest, skip? s.offset.toNat l.bytes = some (s.data ++ rest) ∧
      s.offset.toNat + s.data.length ≤ db.storedSize := by
  have hend := h.start_add_total hlt
  have hfront := h.length_front.trans (h.toNat_start hlt).symm
  rw [← hend] at hlt ⊢
  exact Stream.exists_skip?_of_mem_place h.place hlt hfront hs

/-- Each header describes the bytes of its stream. -/
theorem cut?_entry {s : Stream} (hs : s ∈ l.streams) : s.entry.cut? l.bytes = some s.data := by
  obtain ⟨rest, hskip, hle⟩ := h.exists_skip?_data hlt hs
  have hsize : s.data.length = s.size.toNat :=
    (UInt32.toNat_ofNat_of_lt' (show s.data.length < 2 ^ 32 by omega)).symm
  have hbytes : readBytes? s.size.toNat (s.data ++ rest) = some (s.data, rest) :=
    readBytes?_append hsize _
  simp [StreamHeader.cut?, Stream.entry, hskip, hbytes]

/-- The front of the metadata says what the layout says. -/
theorem readFront?_bytes :
    readFront? l.bytes =
      some (⟨l.version, l.streams.map Stream.entry⟩, l.streams.flatMap (·.data)) := by
  have hlist := readList?_flatMap Stream.entry l.streams
    (fun _ hs => Stream.read?_header (h.zero_notMem_name hs)) (l.streams.flatMap (·.data))
  rw [h.length_streams] at hlist
  have hversion : l.version.length < 256 ^ 4 := h.length_version_le.trans_lt hlt
  have hsignature : (utf8 "BSJB").length = 4 := by decide
  have hone : 1 < 256 ^ 2 := by norm_num
  have hfive : 5 < 256 ^ 2 := by norm_num
  have hreserved (rest : Bytes) : readNumber? 4 (zeros 4 ++ rest) = some (0, rest) :=
    readNumber?_littleEndian_mod 4 0 rest
  have hflags (rest : Bytes) : readNumber? 2 (zeros 2 ++ rest) = some (0, rest) :=
    readNumber?_littleEndian_mod 2 0 rest
  rw [l.bytes_eq]
  simp only [readFront?, readBytes?_append hsignature, Option.bind_eq_bind, Option.bind_some,
    readNumber?_littleEndian hone, hreserved, and_self, guard, ↓reduceIte, Option.pure_def,
    readNumber?_littleEndian hversion, readBytes?_append rfl, hflags,
    readNumber?_littleEndian hfive, hlist]

/-- The streams are read back from the bytes of a layout. -/
theorem readRoot?_bytes :
    readRoot? l.bytes = some ((db.payloads tables).map fun p => (utf8 p.1, p.2)) := by
  have hcut : ∀ s ∈ l.streams, ((s.entry.cut? l.bytes).map fun data => (s.entry.name, data)) =
      some (utf8 s.name, s.data) := by
    intro s hs
    rw [h.cut?_entry hlt hs]
    rfl
  rw [readRoot?, h.readFront?_bytes hlt, ← h.map_streams, List.map_map]
  simp only [Option.bind_eq_bind, Option.bind_some, List.mapM_map]
  exact mapM_eq_some hcut

end Bounded

end Places

end Layout

/-- What a reader gets from the metadata of a database. -/
def Database.loaded (db : Database) : LoadedMetadata where
  strings := db.heaps.strings.bytes
  userStrings := db.heaps.userStrings.bytes
  blobs := db.heaps.blobs.bytes
  guids := db.heaps.guids.bytes
  tables := db.tables

/-- The heaps and tables of a database are read back from its layout. -/
theorem LoadedMetadata.read?_layout {db : Database} {tables : Bytes} {l : Layout}
    (hl : l.Places db tables) (hlt : db.storedSize < 2 ^ 32)
    (hrows : ∀ t, db.tables.rowCount t < 2 ^ 27)
    (hends : ∀ p e, db.tables.cellAt? p = some e → ¬ e.IsWideEnd db.tables.rowCount) :
    LoadedMetadata.read? l.bytes = some db.loaded := by
  have htables : Tables.readStream? (Bytes.padded 4 tables) =
      some (db.tables, zeros (alignUp tables.length 4 - tables.length)) :=
    Tables.readStream?_append hl.stream hrows hends _
  rw [LoadedMetadata.read?, hl.readRoot?_bytes hlt]
  change (Tables.readStream? (Bytes.padded 4 tables)).bind (fun found =>
    some (LoadedMetadata.mk db.heaps.strings.bytes db.heaps.userStrings.bytes
      db.heaps.blobs.bytes db.heaps.guids.bytes found.1)) = _
  rw [htables]
  rfl

end QuillImage.Metadata
