import QuillImage.Metadata.CodedIndex

/-!
# Columns and rows

Each table has a fixed list of columns, and each column a type that says what its
cells hold and how they are stored. A row of a table is one cell for each of its
columns. The order of the columns is the order in which they are stored and
checked.
-/

namespace QuillImage.Metadata

/-- What a column holds. -/
inductive ColumnType where
  /-- A number of one byte. -/
  | byte
  /-- A number of two bytes. -/
  | word
  /-- A number of four bytes. -/
  | dword
  /-- A zero byte, without content. -/
  | padding
  /-- A number of four bytes that is filled in after the row exists. -/
  | lateBound
  /-- An offset into the names, zero for none. -/
  | string
  /-- An offset into the binary values, zero for none. -/
  | blob
  /-- The position of an identifier, counted from one, zero for none. -/
  | guid
  /-- The position of a row of the target table. -/
  | index (target : Table)
  /-- The position of the first row of a run in the target table, which may be
  one past its last row. -/
  | list (target : Table)
  /-- A row of one of several tables. -/
  | coded (kind : CodedKind)
  /-- A row of one of several tables, or none. -/
  | optionalCoded (kind : CodedKind)
  deriving DecidableEq, Repr

/-- The cells of a column. -/
abbrev ColumnType.Cell : ColumnType → Type
  | byte => UInt8
  | word => UInt16
  | dword => UInt32
  | padding => Unit
  | lateBound => Option UInt32
  | string => UInt32
  | blob => UInt32
  | guid => UInt32
  | index _ => UInt32
  | list _ => UInt32
  | coded kind => CodedIndex kind
  | optionalCoded kind => Option (CodedIndex kind)

/-- A column: its name in messages and its type. -/
structure Column where
  name : String
  type : ColumnType
  deriving DecidableEq, Repr

/-- The columns of a table. -/
def Table.columns : Table → List Column
  | module =>
    [⟨"Generation", .word⟩, ⟨"Name", .string⟩, ⟨"Mvid", .guid⟩, ⟨"EncId", .guid⟩,
      ⟨"EncBaseId", .guid⟩]
  | typeRef =>
    [⟨"ResolutionScope", .coded .resolutionScope⟩, ⟨"TypeName", .string⟩,
      ⟨"TypeNamespace", .string⟩]
  | typeDef =>
    [⟨"Flags", .dword⟩, ⟨"TypeName", .string⟩, ⟨"TypeNamespace", .string⟩,
      ⟨"Extends", .optionalCoded .typeDefOrRef⟩, ⟨"FieldList", .list .field⟩,
      ⟨"MethodList", .list .methodDef⟩]
  | field => [⟨"Flags", .word⟩, ⟨"Name", .string⟩, ⟨"Signature", .blob⟩]
  | methodDef =>
    [⟨"RVA", .lateBound⟩, ⟨"ImplFlags", .word⟩, ⟨"Flags", .word⟩, ⟨"Name", .string⟩,
      ⟨"Signature", .blob⟩, ⟨"ParamList", .list .param⟩]
  | param => [⟨"Flags", .word⟩, ⟨"Sequence", .word⟩, ⟨"Name", .string⟩]
  | interfaceImpl => [⟨"Class", .index .typeDef⟩, ⟨"Interface", .coded .typeDefOrRef⟩]
  | memberRef =>
    [⟨"Class", .coded .memberRefParent⟩, ⟨"Name", .string⟩, ⟨"Signature", .blob⟩]
  | constant =>
    [⟨"Type", .byte⟩, ⟨"Padding", .padding⟩, ⟨"Parent", .coded .hasConstant⟩,
      ⟨"Value", .blob⟩]
  | customAttribute =>
    [⟨"Parent", .coded .hasCustomAttribute⟩, ⟨"Type", .coded .customAttributeType⟩,
      ⟨"Value", .blob⟩]
  | fieldMarshal => [⟨"Parent", .coded .hasFieldMarshal⟩, ⟨"NativeType", .blob⟩]
  | declSecurity =>
    [⟨"Action", .word⟩, ⟨"Parent", .coded .hasDeclSecurity⟩, ⟨"PermissionSet", .blob⟩]
  | classLayout =>
    [⟨"PackingSize", .word⟩, ⟨"ClassSize", .dword⟩, ⟨"Parent", .index .typeDef⟩]
  | fieldLayout => [⟨"Offset", .dword⟩, ⟨"Field", .index .field⟩]
  | standAloneSig => [⟨"Signature", .blob⟩]
  | eventMap => [⟨"Parent", .index .typeDef⟩, ⟨"EventList", .list .event⟩]
  | event =>
    [⟨"EventFlags", .word⟩, ⟨"Name", .string⟩, ⟨"EventType", .coded .typeDefOrRef⟩]
  | propertyMap => [⟨"Parent", .index .typeDef⟩, ⟨"PropertyList", .list .property⟩]
  | property => [⟨"Flags", .word⟩, ⟨"Name", .string⟩, ⟨"Type", .blob⟩]
  | methodSemantics =>
    [⟨"Semantics", .word⟩, ⟨"Method", .index .methodDef⟩,
      ⟨"Association", .coded .hasSemantics⟩]
  | methodImpl =>
    [⟨"Class", .index .typeDef⟩, ⟨"MethodBody", .coded .methodDefOrRef⟩,
      ⟨"MethodDeclaration", .coded .methodDefOrRef⟩]
  | moduleRef => [⟨"Name", .string⟩]
  | typeSpec => [⟨"Signature", .blob⟩]
  | implMap =>
    [⟨"MappingFlags", .word⟩, ⟨"MemberForwarded", .coded .memberForwarded⟩,
      ⟨"ImportName", .string⟩, ⟨"ImportScope", .index .moduleRef⟩]
  | fieldRva => [⟨"RVA", .dword⟩, ⟨"Field", .index .field⟩]
  | assembly =>
    [⟨"HashAlgId", .dword⟩, ⟨"MajorVersion", .word⟩, ⟨"MinorVersion", .word⟩,
      ⟨"BuildNumber", .word⟩, ⟨"RevisionNumber", .word⟩, ⟨"Flags", .dword⟩,
      ⟨"PublicKey", .blob⟩, ⟨"Name", .string⟩, ⟨"Culture", .string⟩]
  | assemblyProcessor => [⟨"Processor", .dword⟩]
  | assemblyOs =>
    [⟨"OSPlatformID", .dword⟩, ⟨"OSMajorVersion", .dword⟩, ⟨"OSMinorVersion", .dword⟩]
  | assemblyRef =>
    [⟨"MajorVersion", .word⟩, ⟨"MinorVersion", .word⟩, ⟨"BuildNumber", .word⟩,
      ⟨"RevisionNumber", .word⟩, ⟨"Flags", .dword⟩, ⟨"PublicKeyOrToken", .blob⟩,
      ⟨"Name", .string⟩, ⟨"Culture", .string⟩, ⟨"HashValue", .blob⟩]
  | assemblyRefProcessor =>
    [⟨"Processor", .dword⟩, ⟨"AssemblyRef", .index .assemblyRef⟩]
  | assemblyRefOs =>
    [⟨"OSPlatformId", .dword⟩, ⟨"OSMajorVersion", .dword⟩, ⟨"OSMinorVersion", .dword⟩,
      ⟨"AssemblyRef", .index .assemblyRef⟩]
  | file => [⟨"Flags", .dword⟩, ⟨"Name", .string⟩, ⟨"HashValue", .blob⟩]
  | exportedType =>
    [⟨"Flags", .dword⟩, ⟨"TypeDefId", .dword⟩, ⟨"TypeName", .string⟩,
      ⟨"TypeNamespace", .string⟩, ⟨"Implementation", .coded .implementation⟩]
  | manifestResource =>
    [⟨"Offset", .dword⟩, ⟨"Flags", .dword⟩, ⟨"Name", .string⟩,
      ⟨"Implementation", .optionalCoded .implementation⟩]
  | nestedClass =>
    [⟨"NestedClass", .index .typeDef⟩, ⟨"EnclosingClass", .index .typeDef⟩]
  | genericParam =>
    [⟨"Number", .word⟩, ⟨"Flags", .word⟩, ⟨"Owner", .coded .typeOrMethodDef⟩,
      ⟨"Name", .string⟩]
  | methodSpec => [⟨"Method", .coded .methodDefOrRef⟩, ⟨"Instantiation", .blob⟩]
  | genericParamConstraint =>
    [⟨"Owner", .index .genericParam⟩, ⟨"Constraint", .coded .typeDefOrRef⟩]

/-- One cell for each column of a list. -/
inductive Cells : List Column → Type where
  | nil : Cells []
  | cons {c : Column} {cs : List Column} (cell : c.type.Cell) (rest : Cells cs) :
      Cells (c :: cs)

/-- A row of a table. -/
abbrev Row (t : Table) := Cells t.columns

/-! ## Rows of the tables that every image has -/

/-- A version number of four parts. -/
structure Version where
  major : UInt16
  minor : UInt16
  build : UInt16
  revision : UInt16
  deriving DecidableEq, Repr

namespace Row

/-- The row of a module that was never edited. -/
def module (name mvid : UInt32) : Row .module :=
  .cons (0 : UInt16) <| .cons name <| .cons mvid <| .cons (0 : UInt32) <|
    .cons (0 : UInt32) .nil

/-- The row of an assembly without key and culture. -/
def assembly (hashAlgorithm : UInt32) (version : Version) (name : UInt32) : Row .assembly :=
  .cons hashAlgorithm <| .cons version.major <| .cons version.minor <| .cons version.build <|
    .cons version.revision <| .cons (0 : UInt32) <| .cons (0 : UInt32) <| .cons name <|
    .cons (0 : UInt32) .nil

/-- The row of a type without flags, namespace and base type. -/
def typeDef (name fieldList methodList : UInt32) : Row .typeDef :=
  .cons (0 : UInt32) <| .cons name <| .cons (0 : UInt32) <|
    .cons (none : Option (CodedIndex .typeDefOrRef)) <| .cons fieldList <|
    .cons methodList .nil

/-- The row of a referenced assembly without flags, culture and hash. -/
def assemblyRef (version : Version) (keyToken name : UInt32) : Row .assemblyRef :=
  .cons version.major <| .cons version.minor <| .cons version.build <|
    .cons version.revision <| .cons (0 : UInt32) <| .cons keyToken <| .cons name <|
    .cons (0 : UInt32) <| .cons (0 : UInt32) .nil

/-- The row of a referenced type. -/
def typeRef (scope : CodedIndex .resolutionScope) (name typeSpace : UInt32) : Row .typeRef :=
  .cons scope <| .cons name <| .cons typeSpace .nil

/-- The row of a referenced member. -/
def memberRef (parent : CodedIndex .memberRefParent) (name signature : UInt32) :
    Row .memberRef :=
  .cons parent <| .cons name <| .cons signature .nil

/-- The row of a method. -/
def methodDef (rva : Option UInt32) (implFlags flags : UInt16)
    (name signature paramList : UInt32) : Row .methodDef :=
  .cons rva <| .cons implFlags <| .cons flags <| .cons name <| .cons signature <|
    .cons paramList .nil

/-- The row of a method with its address filled in. -/
def withAddress (rva : UInt32) : Row .methodDef → Row .methodDef
  | .cons _ rest => .cons (some rva) rest

end Row

end QuillImage.Metadata
