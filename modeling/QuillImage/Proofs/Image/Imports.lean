import Mathlib.Tactic
import QuillImage.Proofs.Image.Container

/-!
# Import tables at any place

The import tables refer to each other by addresses, two of them start at multiples of four,
and the section may hold bytes of any number before them. A reader of a section knows its
bytes and its address (`Section.at?`). `Imports.Linked` says what it has to find, starting at
the directory: the entry leads to the lookup table and to the name of the library, the lookup
table and the address table lead to the name of the function, and no two of the tables overlap.

Main statement: import tables that are appended to a section are linked, whatever the section
holds and wherever it is, as long as the address of the directory fits a word
(`Section.addImports_linked`).
-/

namespace QuillImage.Image

/-! ## Sections -/

namespace Section

variable (s : Section)

/-- The bytes of a section at an address, up to a size. -/
def at? (address : UInt32) (size : Nat) : Option Bytes := do
  guard (s.base.toNat ≤ address.toNat)
  let (bytes, _) ← readBytes? size (← skip? (address.toNat - s.base.toNat) s.data)
  return bytes

/-- The address of an offset. -/
def addressAt (offset : Nat) : Except Halt UInt32 := addWords s.base (UInt32.ofNat offset)

/-- The word of the address of an offset. -/
def place (offset : Nat) : UInt32 := s.base + UInt32.ofNat offset

@[simp]
theorem base_append (bytes : Bytes) : (s.append bytes).base = s.base := rfl

@[simp]
theorem offset_append (bytes : Bytes) : (s.append bytes).offset = s.offset + bytes.length :=
  List.length_append

variable {s} {offset : Nat}

theorem toNat_place (h : s.base.toNat + offset < 2 ^ 32) :
    (s.place offset).toNat = s.base.toNat + offset := by
  have hlt : offset < 2 ^ 32 := by omega
  have hoffset : (UInt32.ofNat offset).toNat = offset := UInt32.toNat_ofNat_of_lt hlt
  rw [place, UInt32.toNat_add, hoffset, Nat.mod_eq_of_lt h]

theorem addressAt_of_lt (h : s.base.toNat + offset < 2 ^ 32) :
    s.addressAt offset = .ok (s.place offset) := by
  have hoffset : (UInt32.ofNat offset).toNat = offset :=
    UInt32.toNat_ofNat_of_lt' (show offset < 2 ^ 32 by omega)
  exact addWords_of_lt (by rwa [hoffset])

theorem addressAt_of_le (hlt : offset < 2 ^ 32) (h : 2 ^ 32 ≤ s.base.toNat + offset) :
    s.addressAt offset = .error .overflow :=
  addWords_of_le (by rwa [UInt32.toNat_ofNat_of_lt' hlt])

/-- What is appended at an offset is found at its address. -/
theorem at?_place {appended front bytes : Bytes} {size : Nat}
    (hdata : ∃ rest, s.data ++ appended = front ++ (bytes ++ rest))
    (hfront : front.length = offset) (hsize : bytes.length = size)
    (h : s.base.toNat + offset < 2 ^ 32) :
    (s.append appended).at? (s.place offset) size = some bytes := by
  obtain ⟨rest, hdata⟩ := hdata
  have hle : s.base.toNat ≤ s.base.toNat + offset := Nat.le_add_right _ _
  simp only [at?, append, toNat_place h, Nat.add_sub_cancel_left, hdata, skip?_append hfront,
    readBytes?_append hsize, guard, if_pos hle, Option.pure_def, Option.bind_eq_bind,
    Option.bind_some]

end Section

/-! ## Linked tables -/

/-- What is found from an import directory on: the tables lead to each other, hold the names of
the function and of the library, and do not overlap. Their addresses are those behind `start`. -/
structure Imports.Linked (i : Imports) (s : Section) (start : Nat) (entry : ImportEntry)
    (slot : UInt32) : Prop where
  size_directory : i.directory.size = 40
  size_addresses : i.addresses.size = 8
  /-- The directory is an entry and an entry of zeros. -/
  directory_eq : ∃ first, s.at? i.directory.rva 40 = some (first ++ zeros 20) ∧
    first.length = 20 ∧ ImportEntry.read? first = some entry
  addresses_eq : entry.addresses = i.addresses.rva
  /-- Both tables hold the same slot and a zero slot. -/
  lookupTable_eq : s.at? entry.lookup 8 = some (word32 slot ++ zeros 4)
  addressTable_eq : s.at? i.addresses.rva 8 = some (word32 slot ++ zeros 4)
  function_eq : s.at? slot 14 = some (zeros 2 ++ utf8 "_CorExeMain" ++ [0])
  library_eq : s.at? entry.library 12 = some (utf8 "mscoree.dll" ++ [0])
  /-- The tables follow each other in the bytes that were appended. -/
  ordered : [⟨start, start⟩, ⟨entry.lookup.toNat, entry.lookup.toNat + 8⟩,
      ⟨slot.toNat, slot.toNat + 14⟩, Range.ofDirectory i.addresses,
      ⟨entry.library.toNat, entry.library.toNat + 12⟩, Range.ofDirectory i.directory,
      ⟨s.base.toNat + s.offset, s.base.toNat + s.offset⟩].Pairwise
    fun r r' : Range => r.stop ≤ r'.start

theorem ImportEntry.read?_words (lookup library addresses : UInt32) :
    ImportEntry.read? (word32 lookup ++ zeros 8 ++ word32 library ++ word32 addresses) =
      some ⟨lookup, library, addresses⟩ := by
  have hlast : readWord32? (word32 addresses) = some (addresses, []) := by
    have hread := readWord32?_word32 addresses []
    rwa [List.append_nil] at hread
  simp only [ImportEntry.read?, List.append_assoc, readWord32?_word32,
    skip?_append (length_zeros 8), hlast, Option.bind_eq_bind, Option.bind_some]
  rfl

/-! ## The tables -/

namespace Imports

variable (s : Section)

/-- The offset of the address table. -/
def addressesOffset : Nat := alignUp (s.offset + 22) 4

/-- The offset of the directory. -/
def directoryOffset : Nat := addressesOffset s + 20

/-- The zero bytes between the name of the function and the address table. -/
def gap : Nat := addressesOffset s - (s.offset + 22)

/-- The tables as they are appended to a section. -/
def tables (lookup name addresses library : UInt32) : Bytes :=
  slotTable name ++ (hintAndName ++ (zeros (gap s) ++ (slotTable name ++
    (libraryName ++ directoryBytes lookup library addresses))))

theorem length_slotTable (name : UInt32) : (slotTable name).length = 8 := rfl

theorem length_hintAndName : hintAndName.length = 14 := by decide

theorem length_libraryName : libraryName.length = 12 := by decide

theorem offset_add_gap : s.offset + 22 + gap s = addressesOffset s :=
  Nat.add_sub_cancel' (le_alignUp (by norm_num) _)

theorem addressesOffset_mod_four : addressesOffset s % 4 = 0 := Nat.mul_mod_left _ _

end Imports

namespace Section

open Imports

variable (s : Section)

/-- The section up to the address table. -/
def withLookup (name : UInt32) : Section :=
  s.append (slotTable name ++ hintAndName ++ zeros (gap s))

/-- The section up to the directory. -/
def withLibrary (name : UInt32) : Section :=
  ((s.withLookup name).append (slotTable name)).append libraryName

theorem offset_withLookup (name : UInt32) : (s.withLookup name).offset = addressesOffset s := by
  rw [withLookup, offset_append, List.length_append, List.length_append, length_slotTable,
    length_hintAndName, length_zeros, ← offset_add_gap]
  omega

theorem offset_withLibrary (name : UInt32) : (s.withLibrary name).offset = directoryOffset s := by
  rw [withLibrary, offset_append, offset_append, offset_withLookup, length_slotTable,
    length_libraryName, directoryOffset]

/-- The name of the function is padded up to the address table, and its address is filled into
the lookup table. -/
theorem patch_lookup (name : UInt32) :
    (((s.append (zeros 8)).append hintAndName).align 4).patch s.offset name =
      .ok (s.withLookup name) := by
  have hlength : (s.data ++ zeros 8 ++ hintAndName).length = s.offset + 22 := by
    rw [List.length_append, List.length_append, length_zeros, length_hintAndName]
    rfl
  have hdata : Bytes.padded 4 (s.data ++ zeros 8 ++ hintAndName) =
      s.data ++ (zeros 4 ++ (zeros 4 ++ (hintAndName ++ zeros (gap s)))) := by
    rw [Bytes.padded, Bytes.padTo, hlength, show zeros 8 = zeros 4 ++ zeros 4 from rfl]
    simp only [List.append_assoc]
    rfl
  have hpatch := patch?_append (show s.data.length = s.offset from rfl) (length_zeros 4)
    (zeros 4 ++ (hintAndName ++ zeros (gap s))) name
  rw [patch, align, append, append, hdata, hpatch]
  simp only [withLookup, append, slotTable, List.append_assoc]

/-- The name of the library ends at a multiple of four. -/
theorem align_library (name : UInt32) :
    (((s.withLookup name).append (slotTable name)).append libraryName).align 4 =
      s.withLibrary name := by
  have hmod := addressesOffset_mod_four s
  have hdirectory : directoryOffset s = addressesOffset s + 20 := rfl
  exact align_four (s.offset_withLibrary name) (by omega) s.base

/-- The tables are appended when the addresses of their places fit a word. -/
theorem addImports_eq : s.addImports = (do
    let lookup ← s.addressAt s.offset
    let name ← s.addressAt (s.offset + 8)
    let addresses ← s.addressAt (addressesOffset s)
    let library ← s.addressAt (addressesOffset s + 8)
    let directory ← s.addressAt (directoryOffset s)
    return (⟨⟨directory, 40⟩, ⟨addresses, 8⟩⟩,
      s.append (tables s lookup name addresses library))) := by
  have htables : ∀ lookup name addresses library,
      (s.withLibrary name).append (directoryBytes lookup library addresses) =
        s.append (tables s lookup name addresses library) := by
    intro lookup name addresses library
    simp only [withLibrary, withLookup, append, tables, List.append_assoc]
  unfold addImports
  simp only [patch_lookup, ok_bind, address, align_library, offset_append, length_zeros,
    offset_withLookup, length_slotTable, offset_withLibrary, htables]
  rfl

/-- An address that does not fit a word stops what needs it. -/
theorem addressAt_bind_of_forall {α : Type} {offset : Nat} {f : UInt32 → Except Halt α}
    (h : ∀ address, f address = .error .overflow) :
    (s.addressAt offset >>= f) = .error .overflow := by
  rw [addressAt, addWords]
  split
  · exact h _
  · rfl

/-- The last address is the greatest one, and stops at the latest. -/
theorem addImports_of_le (hlt : directoryOffset s < 2 ^ 32)
    (h : 2 ^ 32 ≤ s.base.toNat + directoryOffset s) : s.addImports = .error .overflow := by
  rw [addImports_eq, addressAt_of_le hlt h]
  refine s.addressAt_bind_of_forall fun lookup => ?_
  refine s.addressAt_bind_of_forall fun name => ?_
  refine s.addressAt_bind_of_forall fun addresses => ?_
  exact s.addressAt_bind_of_forall fun library => rfl

theorem addImports_of_lt (h : s.base.toNat + directoryOffset s < 2 ^ 32) :
    s.addImports = .ok (⟨⟨s.place (directoryOffset s), 40⟩, ⟨s.place (addressesOffset s), 8⟩⟩,
      s.append (tables s (s.place s.offset) (s.place (s.offset + 8))
        (s.place (addressesOffset s)) (s.place (addressesOffset s + 8)))) := by
  have hgap := offset_add_gap s
  have hdirectory : directoryOffset s = addressesOffset s + 20 := rfl
  rw [addImports_eq, addressAt_of_lt (by omega), addressAt_of_lt (by omega),
    addressAt_of_lt (by omega), addressAt_of_lt (by omega), addressAt_of_lt h]
  rfl

/-- The tables that are appended, with the addresses of their places. -/
def importBytes : Bytes :=
  tables s (s.place s.offset) (s.place (s.offset + 8)) (s.place (addressesOffset s))
    (s.place (addressesOffset s + 8))

theorem length_importBytes : s.offset + s.importBytes.length = directoryOffset s + 40 := by
  have hdirectory : ∀ lookup library addresses,
      (directoryBytes lookup library addresses).length = 40 := fun _ _ _ => rfl
  simp only [importBytes, tables, List.length_append, length_slotTable, length_hintAndName,
    length_zeros, length_libraryName, hdirectory, directoryOffset, ← offset_add_gap]
  omega

section Tables

variable (h : s.base.toNat + directoryOffset s < 2 ^ 32)
include h

theorem at?_lookupTable :
    (s.append s.importBytes).at? (s.place s.offset) 8 =
      some (slotTable (s.place (s.offset + 8))) := by
  have hgap := offset_add_gap s
  have hdirectory : directoryOffset s = addressesOffset s + 20 := rfl
  exact at?_place ⟨_, rfl⟩ rfl rfl (by omega)

theorem at?_function :
    (s.append s.importBytes).at? (s.place (s.offset + 8)) 14 = some hintAndName := by
  have hgap := offset_add_gap s
  have hdirectory : directoryOffset s = addressesOffset s + 20 := rfl
  have hfront : (s.data ++ slotTable (s.place (s.offset + 8))).length = s.offset + 8 :=
    s.offset_append _
  refine at?_place ?_ hfront length_hintAndName (by omega)
  simp only [importBytes, tables, List.append_assoc]
  exact ⟨_, rfl⟩

theorem at?_addressTable :
    (s.append s.importBytes).at? (s.place (addressesOffset s)) 8 =
      some (slotTable (s.place (s.offset + 8))) := by
  have hdirectory : directoryOffset s = addressesOffset s + 20 := rfl
  refine at?_place ?_ (s.offset_withLookup (s.place (s.offset + 8))) rfl (by omega)
  simp only [importBytes, tables, withLookup, append, List.append_assoc]
  exact ⟨_, rfl⟩

theorem at?_library :
    (s.append s.importBytes).at? (s.place (addressesOffset s + 8)) 12 = some libraryName := by
  have hdirectory : directoryOffset s = addressesOffset s + 20 := rfl
  have hfront : ((s.withLookup (s.place (s.offset + 8))).data ++
      slotTable (s.place (s.offset + 8))).length = addressesOffset s + 8 := by
    rw [List.length_append, length_slotTable]
    exact congrArg (· + 8) (s.offset_withLookup _)
  refine at?_place ?_ hfront length_libraryName (by omega)
  simp only [importBytes, tables, withLookup, append, List.append_assoc]
  exact ⟨_, rfl⟩

theorem at?_directory :
    (s.append s.importBytes).at? (s.place (directoryOffset s)) 40 =
      some (directoryBytes (s.place s.offset) (s.place (addressesOffset s + 8))
        (s.place (addressesOffset s))) := by
  refine at?_place ?_ (s.offset_withLibrary (s.place (s.offset + 8))) rfl h
  simp only [importBytes, tables, withLibrary, withLookup, append, List.append_assoc]
  exact ⟨[], by rw [List.append_nil]⟩

/-- The tables that are appended are linked. -/
theorem linked_importBytes :
    Imports.Linked ⟨⟨s.place (directoryOffset s), 40⟩, ⟨s.place (addressesOffset s), 8⟩⟩
      (s.append s.importBytes) (s.base.toNat + s.offset)
      ⟨s.place s.offset, s.place (addressesOffset s + 8), s.place (addressesOffset s)⟩
      (s.place (s.offset + 8)) where
  size_directory := rfl
  size_addresses := rfl
  directory_eq := ⟨_, s.at?_directory h, rfl, ImportEntry.read?_words _ _ _⟩
  addresses_eq := rfl
  lookupTable_eq := s.at?_lookupTable h
  addressTable_eq := s.at?_addressTable h
  function_eq := s.at?_function h
  library_eq := s.at?_library h
  ordered := by
    have hgap := offset_add_gap s
    have hdirectory : directoryOffset s = addressesOffset s + 20 := rfl
    have hlookup : (s.place s.offset).toNat = s.base.toNat + s.offset := toNat_place (by omega)
    have hslot : (s.place (s.offset + 8)).toNat = s.base.toNat + (s.offset + 8) :=
      toNat_place (by omega)
    have haddresses : (s.place (addressesOffset s)).toNat = s.base.toNat + addressesOffset s :=
      toNat_place (by omega)
    have hlibrary : (s.place (addressesOffset s + 8)).toNat =
        s.base.toNat + (addressesOffset s + 8) := toNat_place (by omega)
    have hend := s.length_importBytes
    have height : (8 : UInt32).toNat = 8 := rfl
    have hforty : (40 : UInt32).toNat = 40 := rfl
    simp only [List.pairwise_cons, List.forall_mem_cons, List.not_mem_nil, false_imp_iff,
      implies_true, and_true, List.Pairwise.nil, Range.ofDirectory, hlookup, hslot, haddresses,
      hlibrary, toNat_place h, base_append, offset_append, height, hforty]
    omega

end Tables

/-- Import tables are appended to every section in which the address of their directory fits a
word. What the section held stays, and the tables behind it are linked: the directory
has an entry and an entry of zeros, the lookup table and the address table of the entry hold the
same slot and a zero slot, the slot leads to the name of the function and the entry to that of
the library, and the tables do not overlap. If the address does not fit although the offset of
the directory does, nothing is appended. -/
theorem addImports_linked :
    (s.base.toNat + directoryOffset s < 2 ^ 32 →
      ∃ imports appended entry slot, s.addImports = .ok (imports, s.append appended) ∧
        imports.Linked (s.append appended) (s.base.toNat + s.offset) entry slot) ∧
    (directoryOffset s < 2 ^ 32 → 2 ^ 32 ≤ s.base.toNat + directoryOffset s →
      s.addImports = .error .overflow) := by
  constructor
  · intro h
    exact ⟨_, _, _, _, s.addImports_of_lt h, s.linked_importBytes h⟩
  · exact s.addImports_of_le

/-- Three bytes before the tables, and a section at the end of the addresses. -/
theorem addImports_linked_unaligned :
    (∃ imports appended entry slot,
      addImports ⟨0x2000, [1, 2, 3]⟩ = .ok (imports, ⟨0x2000, [1, 2, 3] ++ appended⟩) ∧
        imports.Linked ⟨0x2000, [1, 2, 3] ++ appended⟩ 0x2003 entry slot) ∧
      addImports ⟨0xfffffff0, [1, 2, 3]⟩ = .error .overflow :=
  ⟨(addImports_linked ⟨0x2000, [1, 2, 3]⟩).1 (by decide),
    (addImports_linked ⟨0xfffffff0, [1, 2, 3]⟩).2 (by decide) (by decide)⟩

end Section

end QuillImage.Image
