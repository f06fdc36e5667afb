import Mathlib.Tactic
import QuillImage.Guid
import QuillImage.Proofs.Metadata.Root

/-!
# Looking up metadata

Readers that follow the references in metadata: a token to its row or literal, a row of
a referenced method to its type, the type to its library, and offsets to names, binary
values and identifiers. For each there is a lemma that says what it finds, given the
rows and the heap entries on its way.
-/

namespace QuillImage

/-! ## Identifiers -/

/-- The identifier with a given stored form. -/
def Guid.ofStored? (bs : Bytes) : Option Guid :=
  Guid.ofBytes? ((bs.take 4).reverse ++ ((bs.drop 4).take 2).reverse ++
    ((bs.drop 6).take 2).reverse ++ bs.drop 8)

/-- An identifier is read back from its stored form. -/
theorem Guid.ofStored?_stored (g : Guid) : Guid.ofStored? g.stored = some g := by
  obtain ⟨bytes, hbytes⟩ := g
  have hgroups : ∀ w x y z : Bytes, w.length = 4 → x.length = 2 → y.length = 2 →
      Guid.ofStored? (w.reverse ++ x.reverse ++ y.reverse ++ z) =
        Guid.ofBytes? (w ++ x ++ y ++ z) := by
    intro w x y z hw hx hy
    simp [Guid.ofStored?, List.drop_append, List.drop_eq_nil_of_le, hw, hx, hy]
  have hsplit : bytes.take 4 ++ (bytes.drop 4).take 2 ++ (bytes.drop 6).take 2 ++ bytes.drop 8 =
      bytes := by
    rw [← List.take_add, ← List.take_add, List.take_append_drop]
  rw [Guid.stored, hgroups _ _ _ _ (by simp [hbytes]) (by simp [hbytes]) (by simp [hbytes]), hsplit]
  exact dif_pos hbytes

namespace Metadata

/-! ## References -/

/-- A referenced library. -/
structure LibraryReference where
  name : Bytes
  version : Version
  keyToken : Bytes

/-- A referenced method with its type and library. -/
structure MethodReference where
  name : Bytes
  typeName : Bytes
  typeSpace : Bytes
  library : LibraryReference

namespace LoadedMetadata

variable (m : LoadedMetadata)

/-- The row that a token names in a table. -/
def rowByToken? (t : Table) (token : UInt32) : Option (Row t) := do
  let (number, index) := decodeToken token
  guard (number = t.number)
  m.tables.row? t index

/-- The literal that a token names. -/
def literal? (token : UInt32) : Option (List Char) := do
  let (number, offset) := decodeToken token
  guard (number = 0x70)
  literalAt? m.userStrings offset

/-- The address and the name of the method that a token names. -/
def method? (token : UInt32) : Option (UInt32 × Bytes) := do
  match ← m.rowByToken? .methodDef token with
  | .cons rva (.cons _ (.cons _ (.cons name _))) =>
    return (← rva, ← nameAt? m.strings name.toNat)

/-- The referenced library at a position. -/
def library? (index : UInt32) : Option LibraryReference := do
  match ← m.tables.row? .assemblyRef index.toNat with
  | .cons major (.cons minor (.cons build (.cons revision (.cons _ (.cons key (.cons name _)))))) =>
    return ⟨← nameAt? m.strings name.toNat, ⟨major, minor, build, revision⟩,
      ← blobAt? m.blobs key.toNat⟩

/-- The referenced method that a token names. It belongs to a referenced type, and the
type to a referenced library. -/
def methodReference? (token : UInt32) : Option MethodReference := do
  match ← m.rowByToken? .memberRef token with
  | .cons parent (.cons name _) =>
    guard (parent.table = .typeRef)
    match ← m.tables.row? .typeRef parent.row.toNat with
    | .cons scope (.cons typeName (.cons typeSpace _)) =>
      guard (scope.table = .assemblyRef)
      return ⟨← nameAt? m.strings name.toNat, ← nameAt? m.strings typeName.toNat,
        ← nameAt? m.strings typeSpace.toNat, ← m.library? scope.row⟩

/-- The name and the identifier of the module. -/
def module? : Option (Bytes × Guid) := do
  match ← m.tables.row? .module 1 with
  | .cons _ (.cons name (.cons mvid _)) =>
    return (← nameAt? m.strings name.toNat, ← Guid.ofStored? (← guidAt? m.guids mvid.toNat))

/-! ## What the readers find -/

section Rows

variable {m}

theorem rowByToken?_of_decodeToken {t : Table} {token : UInt32} {index : Nat}
    (h : decodeToken token = (t.number, index)) :
    m.rowByToken? t token = m.tables.row? t index := by
  simp [rowByToken?, h]

theorem literal?_of_decodeToken {token : UInt32} {offset : Nat}
    (h : decodeToken token = (0x70, offset)) :
    m.literal? token = literalAt? m.userStrings offset := by
  simp [literal?, h]

theorem method?_of_row {token rva name signature params : UInt32} {implFlags flags : UInt16}
    {text : Bytes}
    (hrow : m.rowByToken? .methodDef token =
      some (Row.methodDef (some rva) implFlags flags name signature params))
    (hname : nameAt? m.strings name.toNat = some text) : m.method? token = some (rva, text) := by
  rw [method?, hrow]
  change (nameAt? m.strings name.toNat).bind (fun text => some (rva, text)) = _
  rw [hname]
  rfl

theorem library?_of_row {index key name : UInt32} {version : Version} {text token : Bytes}
    (hrow : m.tables.row? .assemblyRef index.toNat = some (Row.assemblyRef version key name))
    (hname : nameAt? m.strings name.toNat = some text)
    (hkey : blobAt? m.blobs key.toNat = some token) :
    m.library? index = some ⟨text, version, token⟩ := by
  rw [library?, hrow]
  change (nameAt? m.strings name.toNat).bind (fun text => (blobAt? m.blobs key.toNat).bind
    fun token => some (LibraryReference.mk text version token)) = _
  rw [hname, hkey]
  rfl

theorem methodReference?_of_rows {token name signature typeName typeSpace : UInt32}
    {parent : CodedIndex .memberRefParent} {scope : CodedIndex .resolutionScope}
    {text typeText spaceText : Bytes} {library : LibraryReference}
    (hrow : m.rowByToken? .memberRef token = some (Row.memberRef parent name signature))
    (hparent : parent.table = .typeRef)
    (htype : m.tables.row? .typeRef parent.row.toNat = some (Row.typeRef scope typeName typeSpace))
    (hscope : scope.table = .assemblyRef)
    (hname : nameAt? m.strings name.toNat = some text)
    (htypeName : nameAt? m.strings typeName.toNat = some typeText)
    (htypeSpace : nameAt? m.strings typeSpace.toNat = some spaceText)
    (hlibrary : m.library? scope.row = some library) :
    m.methodReference? token = some ⟨text, typeText, spaceText, library⟩ := by
  rw [methodReference?, hrow]
  change (guard (parent.table = .typeRef) : Option Unit).bind (fun _ =>
    (m.tables.row? .typeRef parent.row.toNat).bind _) = _
  rw [hparent, htype]
  change (guard (scope.table = .assemblyRef) : Option Unit).bind (fun _ =>
    (nameAt? m.strings name.toNat).bind fun text => (nameAt? m.strings typeName.toNat).bind
      fun typeText => (nameAt? m.strings typeSpace.toNat).bind fun spaceText =>
        (m.library? scope.row).bind fun library =>
          some (MethodReference.mk text typeText spaceText library)) = _
  rw [hscope, hname, htypeName, htypeSpace, hlibrary]
  rfl

theorem module?_of_row {name mvid : UInt32} {text stored : Bytes} {guid : Guid}
    (hrow : m.tables.row? .module 1 = some (Row.module name mvid))
    (hname : nameAt? m.strings name.toNat = some text)
    (hmvid : guidAt? m.guids mvid.toNat = some stored)
    (hguid : Guid.ofStored? stored = some guid) : m.module? = some (text, guid) := by
  rw [module?, hrow]
  change (nameAt? m.strings name.toNat).bind (fun text => (guidAt? m.guids mvid.toNat).bind
    fun stored => (Guid.ofStored? stored).bind fun guid => some (text, guid)) = _
  rw [hname, hmvid, Option.bind_some, Option.bind_some, hguid]
  rfl

end Rows

end LoadedMetadata

end Metadata

end QuillImage
