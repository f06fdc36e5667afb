import QuillImage.Metadata.Table

/-!
# Coded indexes

A coded index names a row of one of several candidate tables. The low bits hold
a tag that selects the candidate, and the row stands above them. Each kind has a
tag width and an order of its candidates; some tags select no table. The targets
of a kind are the tables that an index can be made for. A `CodedIndex` carries the
proof that its table is a candidate, so that it always has a tag.
-/

namespace QuillImage.Metadata

/-- A kind of coded index. -/
inductive CodedKind where
  | typeDefOrRef
  | hasConstant
  | hasCustomAttribute
  | hasFieldMarshal
  | hasDeclSecurity
  | memberRefParent
  | hasSemantics
  | methodDefOrRef
  | memberForwarded
  | implementation
  | customAttributeType
  | resolutionScope
  | typeOrMethodDef
  deriving DecidableEq, Repr

namespace CodedKind

/-- Every kind. -/
def all : List CodedKind :=
  [typeDefOrRef, hasConstant, hasCustomAttribute, hasFieldMarshal, hasDeclSecurity,
    memberRefParent, hasSemantics, methodDefOrRef, memberForwarded, implementation,
    customAttributeType, resolutionScope, typeOrMethodDef]

/-- The name of a kind in messages. -/
def name : CodedKind → String
  | typeDefOrRef => "TypeDefOrRef"
  | hasConstant => "HasConstant"
  | hasCustomAttribute => "HasCustomAttribute"
  | hasFieldMarshal => "HasFieldMarshal"
  | hasDeclSecurity => "HasDeclSecurity"
  | memberRefParent => "MemberRefParent"
  | hasSemantics => "HasSemantics"
  | methodDefOrRef => "MethodDefOrRef"
  | memberForwarded => "MemberForwarded"
  | implementation => "Implementation"
  | customAttributeType => "CustomAttributeType"
  | resolutionScope => "ResolutionScope"
  | typeOrMethodDef => "TypeOrMethodDef"

/-- The kind of a given name. -/
def ofName? (s : String) : Option CodedKind := all.find? (·.name = s)

/-- The width of the tag in bits. -/
def tagBits : CodedKind → Nat
  | hasFieldMarshal | hasSemantics | methodDefOrRef | memberForwarded | typeOrMethodDef => 1
  | typeDefOrRef | hasConstant | hasDeclSecurity | implementation | resolutionScope => 2
  | memberRefParent | customAttributeType => 3
  | hasCustomAttribute => 5

/-- The candidate tables in the order of their tags, with `none` at a tag that
selects no table. -/
def candidates : CodedKind → List (Option Table)
  | typeDefOrRef => [some .typeDef, some .typeRef, some .typeSpec]
  | hasConstant => [some .field, some .param, some .property]
  | hasCustomAttribute =>
    [some .methodDef, some .field, some .typeRef, some .typeDef, some .param,
      some .interfaceImpl, some .memberRef, some .module, some .declSecurity, some .property,
      some .event, some .standAloneSig, some .moduleRef, some .typeSpec, some .assembly,
      some .assemblyRef, some .file, some .exportedType, some .manifestResource,
      some .genericParam, some .genericParamConstraint, some .methodSpec]
  | hasFieldMarshal => [some .field, some .param]
  | hasDeclSecurity => [some .typeDef, some .methodDef, some .assembly]
  | memberRefParent =>
    [some .typeRef, some .typeDef, some .moduleRef, some .methodDef, some .typeSpec]
  | hasSemantics => [some .event, some .property]
  | methodDefOrRef => [some .methodDef, some .memberRef]
  | memberForwarded => [some .field, some .methodDef]
  | implementation => [some .file, some .assemblyRef, some .exportedType]
  | customAttributeType => [none, none, some .methodDef, some .memberRef, none]
  | resolutionScope => [some .module, some .moduleRef, some .assemblyRef, some .typeRef]
  | typeOrMethodDef => [some .typeDef, some .methodDef]

/-- The tables whose rows an index of the kind names. Every table with a tag can
hold what an attribute is attached to; of all other kinds the tables are listed. -/
def targets : CodedKind → List Table
  | typeDefOrRef => [.typeDef, .typeRef, .typeSpec]
  | hasConstant => [.field, .param, .property]
  | hasCustomAttribute => hasCustomAttribute.candidates.filterMap id
  | hasFieldMarshal => [.field, .param]
  | hasDeclSecurity => [.typeDef, .methodDef, .assembly]
  | memberRefParent => [.typeRef, .typeDef, .moduleRef, .methodDef, .typeSpec]
  | hasSemantics => [.event, .property]
  | methodDefOrRef => [.methodDef, .memberRef]
  | memberForwarded => [.field, .methodDef]
  | implementation => [.file, .assemblyRef, .exportedType]
  | customAttributeType => [.methodDef, .memberRef]
  | resolutionScope => [.module, .moduleRef, .assemblyRef, .typeRef]
  | typeOrMethodDef => [.typeDef, .methodDef]

/-- Every target of a kind has a tag. -/
theorem mem_candidates_of_mem_targets {k : CodedKind} {table : Table} (h : table ∈ k.targets) :
    some table ∈ k.candidates := by
  have hall : ∀ t ∈ k.targets, some t ∈ k.candidates := by cases k <;> decide
  exact hall table h

/-- The table and row that an encoded value names, unless its tag selects no
table. -/
def decode? (k : CodedKind) (value : UInt32) : Option (Table × UInt32) :=
  match k.candidates[value.toNat % Nat.pow 2 k.tagBits]? with
  | some (some table) => some (table, UInt32.ofNat (value.toNat / Nat.pow 2 k.tagBits))
  | _ => none

end CodedKind

/-- A row of one of the candidate tables of a kind. -/
structure CodedIndex (k : CodedKind) where
  /-- The table that holds the row. -/
  table : Table
  /-- The position of the row, counted from one. -/
  row : UInt32
  /-- The table is one of the kind's candidates. -/
  isCandidate : some table ∈ k.candidates

namespace CodedIndex

variable {k : CodedKind}

/-- The coded index of a row of a table, if the table is a target of the kind. -/
def ofTarget? (k : CodedKind) (table : Table) (row : UInt32) : Option (CodedIndex k) :=
  if h : table ∈ k.targets then some ⟨table, row, CodedKind.mem_candidates_of_mem_targets h⟩
  else none

/-- The tag of the index: the first place of its table among the candidates. -/
def tag (x : CodedIndex k) : Nat := k.candidates.idxOf (some x.table)

/-- The encoded value: the row above the tag. Row bits that leave the 32-bit word
are lost. -/
def encode (x : CodedIndex k) : UInt32 :=
  UInt32.ofNat (x.row.toNat * Nat.pow 2 k.tagBits + x.tag)

/-- The coded index with a given encoded value. -/
def decode? (k : CodedKind) (value : UInt32) : Option (CodedIndex k) :=
  (k.decode? value).bind fun (table, row) => ofTarget? k table row

end CodedIndex

end QuillImage.Metadata
