/-!
# Metadata tables

The 38 tables of the metadata database with their numbers and names, the tables
that a loader takes to be sorted, and the tokens that name a row by its table
and position.
-/

namespace QuillImage.Metadata

/-- A metadata table. -/
inductive Table where
  | module
  | typeRef
  | typeDef
  | field
  | methodDef
  | param
  | interfaceImpl
  | memberRef
  | constant
  | customAttribute
  | fieldMarshal
  | declSecurity
  | classLayout
  | fieldLayout
  | standAloneSig
  | eventMap
  | event
  | propertyMap
  | property
  | methodSemantics
  | methodImpl
  | moduleRef
  | typeSpec
  | implMap
  | fieldRva
  | assembly
  | assemblyProcessor
  | assemblyOs
  | assemblyRef
  | assemblyRefProcessor
  | assemblyRefOs
  | file
  | exportedType
  | manifestResource
  | nestedClass
  | genericParam
  | methodSpec
  | genericParamConstraint
  deriving DecidableEq, Repr

namespace Table

/-- The number of a table, which is its place in the bit masks of the table
stream. -/
def number : Table → Nat
  | module => 0x00
  | typeRef => 0x01
  | typeDef => 0x02
  | field => 0x04
  | methodDef => 0x06
  | param => 0x08
  | interfaceImpl => 0x09
  | memberRef => 0x0a
  | constant => 0x0b
  | customAttribute => 0x0c
  | fieldMarshal => 0x0d
  | declSecurity => 0x0e
  | classLayout => 0x0f
  | fieldLayout => 0x10
  | standAloneSig => 0x11
  | eventMap => 0x12
  | event => 0x14
  | propertyMap => 0x15
  | property => 0x17
  | methodSemantics => 0x18
  | methodImpl => 0x19
  | moduleRef => 0x1a
  | typeSpec => 0x1b
  | implMap => 0x1c
  | fieldRva => 0x1d
  | assembly => 0x20
  | assemblyProcessor => 0x21
  | assemblyOs => 0x22
  | assemblyRef => 0x23
  | assemblyRefProcessor => 0x24
  | assemblyRefOs => 0x25
  | file => 0x26
  | exportedType => 0x27
  | manifestResource => 0x28
  | nestedClass => 0x29
  | genericParam => 0x2a
  | methodSpec => 0x2b
  | genericParamConstraint => 0x2c

/-- The name of a table in messages. -/
def name : Table → String
  | module => "Module"
  | typeRef => "TypeRef"
  | typeDef => "TypeDef"
  | field => "Field"
  | methodDef => "MethodDef"
  | param => "Param"
  | interfaceImpl => "InterfaceImpl"
  | memberRef => "MemberRef"
  | constant => "Constant"
  | customAttribute => "CustomAttribute"
  | fieldMarshal => "FieldMarshal"
  | declSecurity => "DeclSecurity"
  | classLayout => "ClassLayout"
  | fieldLayout => "FieldLayout"
  | standAloneSig => "StandAloneSig"
  | eventMap => "EventMap"
  | event => "Event"
  | propertyMap => "PropertyMap"
  | property => "Property"
  | methodSemantics => "MethodSemantics"
  | methodImpl => "MethodImpl"
  | moduleRef => "ModuleRef"
  | typeSpec => "TypeSpec"
  | implMap => "ImplMap"
  | fieldRva => "FieldRVA"
  | assembly => "Assembly"
  | assemblyProcessor => "AssemblyProcessor"
  | assemblyOs => "AssemblyOS"
  | assemblyRef => "AssemblyRef"
  | assemblyRefProcessor => "AssemblyRefProcessor"
  | assemblyRefOs => "AssemblyRefOS"
  | file => "File"
  | exportedType => "ExportedType"
  | manifestResource => "ManifestResource"
  | nestedClass => "NestedClass"
  | genericParam => "GenericParam"
  | methodSpec => "MethodSpec"
  | genericParamConstraint => "GenericParamConstraint"

/-- Every table, in ascending order of its number. -/
def all : List Table :=
  [module, typeRef, typeDef, field, methodDef, param, interfaceImpl, memberRef, constant,
    customAttribute, fieldMarshal, declSecurity, classLayout, fieldLayout, standAloneSig,
    eventMap, event, propertyMap, property, methodSemantics, methodImpl, moduleRef, typeSpec,
    implMap, fieldRva, assembly, assemblyProcessor, assemblyOs, assemblyRef,
    assemblyRefProcessor, assemblyRefOs, file, exportedType, manifestResource, nestedClass,
    genericParam, methodSpec, genericParamConstraint]

/-- Every table is listed. -/
theorem mem_all (t : Table) : t ∈ all := by cases t <;> decide

/-- The tables that a loader expects in the order of their key column. -/
def sorted : List Table :=
  [interfaceImpl, constant, customAttribute, fieldMarshal, declSecurity, classLayout,
    fieldLayout, methodSemantics, methodImpl, implMap, fieldRva, nestedClass, genericParam,
    genericParamConstraint]

/-- The table of a given number. -/
def ofNumber? (n : Nat) : Option Table := all.find? (·.number = n)

/-- Table numbers are bit positions of a 64-bit mask. -/
theorem number_lt (t : Table) : t.number < 64 := by cases t <;> decide

theorem ofNumber?_number (t : Table) : ofNumber? t.number = some t := by cases t <;> rfl

/-- The table of a given name. -/
def ofName? (s : String) : Option Table := all.find? (·.name = s)

/-- The mask with the bits of the given tables set. -/
def mask (ts : List Table) : Nat := ts.foldl (fun m t => m ||| 1 <<< t.number) 0

/-- The mask of the tables that are said to be sorted. -/
def sortedMask : Nat := mask sorted

/-- The token of row `index` of a table: the table's number in the high byte,
joined with the index, which is not cut to 24 bits. -/
def token (t : Table) (index : UInt32) : UInt32 :=
  UInt32.ofNat (t.number <<< 24 ||| index.toNat)

end Table

/-- The high byte and the low 24 bits of a token. -/
def decodeToken (token : UInt32) : Nat × Nat :=
  (token.toNat / 0x1000000, token.toNat % 0x1000000)

end QuillImage.Metadata
