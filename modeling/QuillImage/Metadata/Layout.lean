import QuillImage.Event
import QuillImage.Metadata.Heap
import QuillImage.Metadata.TableStream

/-!
# The metadata database and its layout

A `Database` collects heap entries and rows; each insertion gives back the
offset, position or token by which rows and instructions refer to it.
`Database.layout` checks the database and places its five streams behind the
root, and `Layout.bytes` is the result in its stored form.
-/

namespace QuillImage.Metadata

/-! ## Database -/

/-- A metadata database in the making. -/
structure Database where
  /-- The version of the runtime that the root names. -/
  version : String
  heaps : Heaps := {}
  tables : Tables := Tables.empty

namespace Database

/-- Adds a name and gives back its offset. -/
def addString (db : Database) (s : String) : UInt32 × Database :=
  let (offset, heap) := db.heaps.strings.insertString s
  (UInt32.ofNat offset, { db with heaps := { db.heaps with strings := heap } })

/-- Adds a literal and gives back its token: the offset joined with the high byte
`0x70`. -/
def addUserString (db : Database) (s : String) : Except Failure (UInt32 × Database) :=
  (db.heaps.userStrings.insertUserString s).map fun (offset, heap) =>
    (0x70000000 ||| UInt32.ofNat offset,
      { db with heaps := { db.heaps with userStrings := heap } })

/-- Adds a binary value and gives back its offset. -/
def addBlob (db : Database) (blob : Bytes) : Except Failure (UInt32 × Database) :=
  (db.heaps.blobs.insertBlob blob).map fun (offset, heap) =>
    (UInt32.ofNat offset, { db with heaps := { db.heaps with blobs := heap } })

/-- Adds an identifier of 16 bytes and gives back its position, counted from
one. -/
def addGuid (db : Database) (guid : Bytes) : UInt32 × Database :=
  let (offset, heap) := db.heaps.guids.insert guid
  (UInt32.ofNat offset / 16 + 1, { db with heaps := { db.heaps with guids := heap } })

/-- Appends a row and gives back its position, counted from one. -/
def addRow {t : Table} (row : Row t) : Database → UInt32 × Database
  | ⟨version, heaps, tables⟩ =>
    let (index, tables) := tables.push row
    (UInt32.ofNat index, ⟨version, heaps, tables⟩)

/-- Appends a row and gives back its token. -/
def addRowToken {t : Table} (row : Row t) (db : Database) : UInt32 × Database :=
  let (index, db) := db.addRow row
  (t.token index, db)

/-- The row at a position. -/
def row? (db : Database) (t : Table) (index : UInt32) : Option (Row t) :=
  db.tables.row? t index.toNat

/-- Replaces the row at a position, if there is one. -/
def setRow? (db : Database) {t : Table} (index : UInt32) (row : Row t) : Option Database :=
  (db.tables.setRow? index.toNat row).map fun tables => { db with tables }

/-- The heap sizes that the rows are checked against, which are words. -/
def heapSizes (db : Database) : HeapSizes where
  strings := db.heaps.strings.wordSize.toNat
  blobs := db.heaps.blobs.wordSize.toNat
  guids := db.heaps.guids.guidCount.toNat

end Database

/-! ## Layout -/

/-- A stream and its place in the metadata. -/
structure Stream where
  name : String
  /-- The distance from the root. -/
  offset : UInt32
  data : Bytes
  deriving DecidableEq, Repr

namespace Stream

/-- The size of the stream as a word. Higher bits are lost. -/
def size (s : Stream) : UInt32 := UInt32.ofNat s.data.length

/-- The size of a stream header: offset, size, and the name with its final zero
byte, padded. -/
def headerSize (name : String) : Nat := 8 + alignUp ((utf8 name).length + 1) 4

/-- The offset and the size of a stream, before its name. -/
def header (s : Stream) : Bytes :=
  word32 s.offset ++ word32 s.size ++ Bytes.padded 4 (utf8 s.name ++ [0])

/-- Places streams one after the other from an offset on, and gives back where the last
one ends. -/
def place : (offset : UInt32) → List (String × Bytes) → Except Halt (List Stream × UInt32)
  | offset, [] => .ok ([], offset)
  | offset, (name, data) :: rest => do
    let s : Stream := ⟨name, offset, data⟩
    let (streams, stop) ← place (← addWords offset s.size) rest
    return (s :: streams, stop)

end Stream

/-- A database that is laid out. -/
structure Layout where
  /-- The version text with its final zero byte, padded. -/
  version : Bytes
  /-- The mask of the tables that have rows. -/
  validMask : Nat
  /-- The row counts of the tables that have rows. -/
  rowCounts : List (Table × Nat)
  streams : List Stream
  /-- The size of the whole in bytes. -/
  size : UInt32
  deriving DecidableEq, Repr

namespace Layout

/-- The size of the root without its stream headers. -/
def rootSize (version : Bytes) : Nat := 16 + version.length + 4

/-- The root: signature, format version, the version text and the number of
streams. -/
def root (l : Layout) : Bytes :=
  littleEndian 4 0x424a5342 ++ littleEndian 2 1 ++ littleEndian 2 1 ++ zeros 4 ++
    littleEndian 4 l.version.length ++ l.version ++ zeros 2 ++ littleEndian 2 5

/-- The stored form: root, stream headers, streams. -/
def bytes (l : Layout) : Bytes :=
  l.root ++ l.streams.flatMap Stream.header ++ l.streams.flatMap (·.data)

/-- The stream of a given name. -/
def stream? (l : Layout) (name : String) : Option Stream := l.streams.find? (·.name = name)

/-- What is reported about a layout. -/
def events (l : Layout) : List Event :=
  l.rowCounts.map (fun (t, n) => .countedRows t n) ++
    l.streams.map (fun s => .placedStream s.name s.offset.toNat s.size.toNat)

end Layout

/-- The streams of a database in their order, given the bytes of its tables. -/
def Database.payloads (db : Database) (tables : Bytes) : List (String × Bytes) :=
  [(HeapName.strings.stream, db.heaps.strings.bytes),
    (HeapName.userStrings.stream, db.heaps.userStrings.bytes),
    (HeapName.blob.stream, db.heaps.blobs.bytes),
    (HeapName.guid.stream, db.heaps.guids.bytes),
    ("#~", Bytes.padded 4 tables)]

/-- Checks the database and places its streams: the four heaps, then the
tables. -/
def Database.layout (db : Database) : Except Halt Layout := do
  let tables ← (db.tables.stream db.heapSizes).mapError .failure
  let version := Bytes.padded 4 (utf8 db.version ++ [0])
  let payloads := db.payloads tables
  let start := Layout.rootSize version + total (payloads.map fun p => Stream.headerSize p.1)
  let (streams, size) ← Stream.place (UInt32.ofNat start) payloads
  return {
    version
    validMask := db.tables.validMask
    rowCounts := db.tables.nonempty.map fun t => (t, db.tables.rowCount t)
    streams
    size }

end QuillImage.Metadata
