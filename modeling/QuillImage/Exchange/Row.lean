import QuillImage.Exchange.Value
import QuillImage.Metadata.Row

/-!
# Exchange of rows

A row is a record with a field for each column. A version of four parts is one
field with a list, and padding has no field. A coded index is a pair of the name
of its table and the position of its row.
-/

namespace QuillImage.Exchange

open Metadata

/-- Where a column stands in the record of a row. -/
inductive RowKey where
  | key (name : String)
  /-- A part of the version. -/
  | versionPart (i : Nat)
  | none

/-- The columns of a version. -/
def versionKeys : List RowKey := (List.range 4).map .versionPart

/-- The places of the columns of a table. -/
def rowKeys : Table → List RowKey
  | .module => keys ["generation", "name", "mvid", "enc_id", "enc_base_id"]
  | .typeRef => keys ["resolution_scope", "name", "namespace"]
  | .typeDef => keys ["flags", "name", "namespace", "extends", "field_list", "method_list"]
  | .field => keys ["flags", "name", "signature"]
  | .methodDef => keys ["rva", "impl_flags", "flags", "name", "signature", "param_list"]
  | .param => keys ["flags", "sequence", "name"]
  | .interfaceImpl => keys ["class", "interface"]
  | .memberRef => keys ["class", "name", "signature"]
  | .constant => [.key "ty", .none, .key "parent", .key "value"]
  | .customAttribute => keys ["parent", "ty", "value"]
  | .fieldMarshal => keys ["parent", "native_type"]
  | .declSecurity => keys ["action", "parent", "permission_set"]
  | .classLayout => keys ["packing_size", "class_size", "parent"]
  | .fieldLayout => keys ["offset", "field"]
  | .standAloneSig => keys ["signature"]
  | .eventMap => keys ["parent", "event_list"]
  | .event => keys ["flags", "name", "event_type"]
  | .propertyMap => keys ["parent", "property_list"]
  | .property => keys ["flags", "name", "ty"]
  | .methodSemantics => keys ["semantics", "method", "association"]
  | .methodImpl => keys ["class", "method_body", "method_declaration"]
  | .moduleRef => keys ["name"]
  | .typeSpec => keys ["signature"]
  | .implMap => keys ["mapping_flags", "member_forwarded", "import_name", "import_scope"]
  | .fieldRva => keys ["rva", "field"]
  | .assembly =>
    .key "hash_alg_id" :: versionKeys ++ keys ["flags", "public_key", "name", "culture"]
  | .assemblyProcessor => keys ["processor"]
  | .assemblyOs => keys ["platform_id", "major_version", "minor_version"]
  | .assemblyRef =>
    versionKeys ++ keys ["flags", "public_key_or_token", "name", "culture", "hash_value"]
  | .assemblyRefProcessor => keys ["processor", "assembly_ref"]
  | .assemblyRefOs => keys ["platform_id", "major_version", "minor_version", "assembly_ref"]
  | .file => keys ["flags", "name", "hash_value"]
  | .exportedType => keys ["flags", "type_def_id", "name", "namespace", "implementation"]
  | .manifestResource => keys ["offset", "flags", "name", "implementation"]
  | .nestedClass => keys ["nested_class", "enclosing_class"]
  | .genericParam => keys ["number", "flags", "owner", "name"]
  | .methodSpec => keys ["method", "instantiation"]
  | .genericParamConstraint => keys ["owner", "constraint"]
where
  /-- One key for each name. -/
  keys (names : List String) : List RowKey := names.map .key

/-! ## Reading -/

/-- Why a row cannot be read. -/
inductive RowError where
  /-- A value has another form than its column. -/
  | expected (what : String)
  /-- A coded index leads to a table that is no candidate. -/
  | notACandidate

/-- The reading of a row. -/
abbrev ReadRow := Except RowError

/-- Reads a part of a row. -/
def readPart {α : Type} : Read α → ReadRow α
  | .ok a => .ok a
  | .error what => .error (.expected what)

/-- A table by its name. -/
def readTable (v : Value) : Read Table := do
  match Table.ofName? (← v.asText) with
  | some t => pure t
  | none => throw "the name of a table"

/-- A table and the position of a row. -/
def readTarget (v : Value) : Read (Table × UInt32) :=
  v.asPair readTable fun n => return UInt32.ofNat (← n.asNat)

/-- A coded index. -/
def readCoded (k : CodedKind) (v : Value) : ReadRow (CodedIndex k) := do
  let (t, row) ← readPart (readTarget v)
  match CodedIndex.ofTarget? k t row with
  | some x => pure x
  | none => throw .notACandidate

/-- A number that may be missing. -/
def readNumber (v : Option Value) : ReadRow Nat :=
  match v with
  | some v => readPart v.asNat
  | none => pure 0

/-- A cell of a column. -/
def readCell (v : Option Value) : (ty : ColumnType) → ReadRow ty.Cell
  | .byte => return UInt8.ofNat (← readNumber v)
  | .word => return UInt16.ofNat (← readNumber v)
  | .padding => return ()
  | .lateBound =>
    match v with
    | some v => return some (UInt32.ofNat (← readPart v.asNat))
    | none => return none
  | .dword | .string | .blob | .guid | .index _ | .list _ => return UInt32.ofNat (← readNumber v)
  | .coded k =>
    match v with
    | some v => readCoded k v
    | none => throw (.expected "a coded index")
  | .optionalCoded k =>
    match v with
    | some v => return some (← readCoded k v)
    | none => return none

/-- Whether the value of a column was given, and the value unless it is null. -/
def RowKey.lookup (v : Value) : RowKey → Bool × Option Value
  | key name => ((v.given? name).isSome, v.field? name)
  | versionPart i =>
    match v.field? "version" with
    | some (.list parts) => (true, parts[i]?)
    | _ => ((v.given? "version").isSome, .none)
  | none => (false, .none)

/-- Reads the cells of a row. -/
def readCells (v : Value) : (cs : List Column) → List RowKey → ReadRow (Cells cs)
  | c :: cs, key :: keys => do
    let cell ← readCell (key.lookup v).2 c.type
    return .cons cell (← readCells v cs keys)
  | [], _ => return .nil
  | _ :: _, [] => throw (.expected "a key")

/-- Replaces the cells of a row whose values are given. -/
def updateCells (v : Value) : {cs : List Column} → List RowKey → Cells cs → ReadRow (Cells cs)
  | _, key :: keys, .cons (c := c) cell rest => do
    let (given, new) := key.lookup v
    let cell ← if given then readCell new c.type else pure cell
    return .cons cell (← updateCells v keys rest)
  | _, _, cells => return cells

/-- Reads a row of a table. -/
def readRow (t : Table) (v : Value) : ReadRow (Row t) := readCells v t.columns (rowKeys t)

/-- Replaces the columns of a row whose values are given. -/
def updateRow {t : Table} (v : Value) (row : Row t) : ReadRow (Row t) :=
  updateCells v (rowKeys t) row

/-! ## Writing -/

/-- A table and the position of a row. -/
def writeTarget (t : Table) (row : UInt32) : Value := .list [.text t.name, .nat row.toNat]

/-- A cell of a column. -/
def writeCell : (ty : ColumnType) → ty.Cell → Value
  | .byte, v => .nat v.toNat
  | .word, v => .nat v.toNat
  | .padding, _ => .null
  | .lateBound, v => .option (fun n => .nat n.toNat) v
  | .dword, v | .string, v | .blob, v | .guid, v | .index _, v | .list _, v => .nat v.toNat
  | .coded _, v => writeTarget v.table v.row
  | .optionalCoded _, v => .option (fun x => writeTarget x.table x.row) v

/-- The cells of a row in order. -/
def writeCells : {cs : List Column} → Cells cs → List Value
  | _, .nil => []
  | _, .cons (c := c) cell rest => writeCell c.type cell :: writeCells rest

/-- A row as a record. -/
def writeRow {t : Table} (row : Row t) : Value :=
  let cells := (rowKeys t).zip (writeCells row)
  let keyed := cells.filterMap fun
    | (.key name, v) => some (name, v)
    | _ => none
  let parts := cells.filterMap fun
    | (.versionPart _, v) => some v
    | _ => none
  .record (if parts.isEmpty then keyed else ("version", .list parts) :: keyed)

end QuillImage.Exchange
