import Mathlib.Tactic
import QuillImage.Proofs.Image.Boot

/-!
# The container of an image

A system that starts an image knows nothing of the managed runtime: it reads sizes and
addresses from the headers, loads the section, fills the address table of the imports and
jumps to the entry point. `ImageMap.read?` collects from the bytes of a file all places
that the system and the runtime use, and `ImageMap.Sound` says how they have to agree with
each other and with the file.

Main statement: the map of every executable that fits is sound
(`Executable.exists_sound_assemble`). The parts of its section follow each other, and the
entry point is a jump through the slot of the imported function.
-/

namespace QuillImage.Image

open Metadata Method

/-! ## The reader -/

/-- The bytes of a file from an address on. The section is loaded at `0x2000`, and stored
at `0x200`. -/
def fileFrom? (file : Bytes) (address : Nat) : Option Bytes := do
  guard (0x2000 ≤ address)
  skip? (address - 0x2000 + 0x200) file

/-- The bytes of a file at an address, up to a size. -/
def fileAt? (file : Bytes) (address size : Nat) : Option Bytes := do
  let (bytes, _) ← readBytes? size (← fileFrom? file address)
  return bytes

/-- The fields of an optional header that the system uses to load an image. -/
structure SystemFields where
  codeSize : UInt32
  entryPoint : UInt32
  imageBase : UInt32
  imageSize : UInt32

/-- Reads the fields at offsets 4, 16, 28 and 56 of an optional header. -/
def SystemFields.read? (optional : Bytes) : Option SystemFields := do
  let (codeSize, bs) ← readWord32? (← skip? 4 optional)
  let (entryPoint, bs) ← readWord32? (← skip? 8 bs)
  let (imageBase, bs) ← readWord32? (← skip? 8 bs)
  let (imageSize, _) ← readWord32? (← skip? 24 bs)
  return { codeSize, entryPoint, imageBase, imageSize }

/-- The first entry of an import directory. -/
structure ImportEntry where
  /-- The address of the lookup table. -/
  lookup : UInt32
  /-- The address of the name of the library. -/
  library : UInt32
  /-- The address of the address table. -/
  addresses : UInt32
  deriving DecidableEq

/-- Reads an entry of an import directory. -/
def ImportEntry.read? (bs : Bytes) : Option ImportEntry := do
  let (lookup, bs) ← readWord32? bs
  let (library, bs) ← readWord32? (← skip? 8 bs)
  let (addresses, _) ← readWord32? bs
  return { lookup, library, addresses }

/-- The places that are found in an image file. -/
structure ImageMap where
  /-- The end of the headers in the file. -/
  headersEnd : Nat
  fields : SystemFields
  text : SectionHeader
  /-- Directory 1, the import directory. -/
  imports : Directory
  /-- Directory 12, the address table. -/
  addresses : Directory
  /-- Directory 14, the header of the managed runtime. -/
  cli : Directory
  entry : ImportEntry
  /-- The first slot of the address table. -/
  slot : UInt32
  metadata : Directory
  mainAddress : UInt32
  /-- The size of the main method with its header. -/
  mainSize : Nat

/-- The section of an image that has one. -/
def LoadedImage.section? (image : LoadedImage) : Option SectionHeader :=
  match image.sections with
  | [s] => some s
  | _ => none

namespace ImageMap

/-- Reads the places of an image file. The number at `0x3c` leads to the signature, which
is followed by the file header of 20 bytes, the optional header, and section headers of 40
bytes. -/
def read? (file : Bytes) : Option ImageMap := do
  let (place, _) ← readNumber? 4 (← skip? 0x3c file)
  let (sectionCount, optionalSize, optional) ← readFileHeader? file
  let fields ← SystemFields.read? optional
  let image ← LoadedImage.open? file
  let text ← image.section?
  let imports ← image.directories[1]?
  let addresses ← image.directories[12]?
  let cli ← image.directories[14]?
  let entry ← ImportEntry.read? (← fileAt? file imports.rva.toNat imports.size.toNat)
  let (slot, _) ← readWord32? (← fileAt? file addresses.rva.toNat addresses.size.toNat)
  let (_, header) ← readCliHeader? (← fileAt? file cli.rva.toNat cli.size.toNat)
  let m ← LoadedMetadata.read?
    (← fileAt? file header.metadata.rva.toNat header.metadata.size.toNat)
  let (mainAddress, _) ← m.method? header.entryPoint
  let code ← readTinyMethod? (← fileFrom? file mainAddress.toNat)
  return {
    headersEnd := place + 4 + 20 + optionalSize + 40 * sectionCount
    fields, text, imports, addresses, cli, entry, slot
    metadata := header.metadata
    mainAddress
    mainSize := 1 + code.length }

/-- A map is read when each step finds what the next one needs. -/
theorem read?_eq_some {file optional entryBytes slotBytes headerBytes metadata mainName method
      code rest rest' rest'' : Bytes} {place sectionCount optionalSize : Nat}
    {fields : SystemFields} {image : LoadedImage} {text : SectionHeader}
    {imports addresses cli : Directory} {entry : ImportEntry} {slot size mainAddress : UInt32}
    {header : CliHeader} {m : LoadedMetadata}
    (hskip : skip? 0x3c file = some rest) (hplace : readNumber? 4 rest = some (place, rest'))
    (hfile : readFileHeader? file = some (sectionCount, optionalSize, optional))
    (hfields : SystemFields.read? optional = some fields)
    (hopen : LoadedImage.open? file = some image) (htext : image.section? = some text)
    (himports : image.directories[1]? = some imports)
    (haddresses : image.directories[12]? = some addresses)
    (hcli : image.directories[14]? = some cli)
    (hentryBytes : fileAt? file imports.rva.toNat imports.size.toNat = some entryBytes)
    (hentry : ImportEntry.read? entryBytes = some entry)
    (hslotBytes : fileAt? file addresses.rva.toNat addresses.size.toNat = some slotBytes)
    (hslot : readWord32? slotBytes = some (slot, rest''))
    (hheaderBytes : fileAt? file cli.rva.toNat cli.size.toNat = some headerBytes)
    (hheader : readCliHeader? headerBytes = some (size, header))
    (hmetadata : fileAt? file header.metadata.rva.toNat header.metadata.size.toNat = some metadata)
    (hread : LoadedMetadata.read? metadata = some m)
    (hmethod : m.method? header.entryPoint = some (mainAddress, mainName))
    (hfrom : fileFrom? file mainAddress.toNat = some method)
    (htiny : readTinyMethod? method = some code) :
    read? file = some
      { headersEnd := place + 4 + 20 + optionalSize + 40 * sectionCount
        fields, text, imports, addresses, cli, entry, slot
        metadata := header.metadata
        mainAddress
        mainSize := 1 + code.length } := by
  refine Option.bind_eq_some_iff.2 ⟨rest, hskip, ?_⟩
  refine Option.bind_eq_some_iff.2 ⟨_, hplace, ?_⟩
  refine Option.bind_eq_some_iff.2 ⟨_, hfile, ?_⟩
  refine Option.bind_eq_some_iff.2 ⟨fields, hfields, ?_⟩
  refine Option.bind_eq_some_iff.2 ⟨image, hopen, ?_⟩
  refine Option.bind_eq_some_iff.2 ⟨text, htext, ?_⟩
  refine Option.bind_eq_some_iff.2 ⟨imports, himports, ?_⟩
  refine Option.bind_eq_some_iff.2 ⟨addresses, haddresses, ?_⟩
  refine Option.bind_eq_some_iff.2 ⟨cli, hcli, ?_⟩
  refine Option.bind_eq_some_iff.2 ⟨entryBytes, hentryBytes, ?_⟩
  refine Option.bind_eq_some_iff.2 ⟨entry, hentry, ?_⟩
  refine Option.bind_eq_some_iff.2 ⟨slotBytes, hslotBytes, ?_⟩
  refine Option.bind_eq_some_iff.2 ⟨_, hslot, ?_⟩
  refine Option.bind_eq_some_iff.2 ⟨headerBytes, hheaderBytes, ?_⟩
  refine Option.bind_eq_some_iff.2 ⟨_, hheader, ?_⟩
  refine Option.bind_eq_some_iff.2 ⟨metadata, hmetadata, ?_⟩
  refine Option.bind_eq_some_iff.2 ⟨m, hread, ?_⟩
  refine Option.bind_eq_some_iff.2 ⟨_, hmethod, ?_⟩
  refine Option.bind_eq_some_iff.2 ⟨method, hfrom, ?_⟩
  exact Option.bind_eq_some_iff.2 ⟨code, htiny, rfl⟩

end ImageMap

/-! ## Sound maps -/

/-- A range of addresses, the end not included. -/
structure Range where
  start : Nat
  stop : Nat

namespace Range

/-- The second range holds the first, which is not empty. -/
def Within (r r' : Range) : Prop := r'.start ≤ r.start ∧ r.start < r.stop ∧ r.stop ≤ r'.stop

/-- The range of a directory. -/
def ofDirectory (d : Directory) : Range := ⟨d.rva.toNat, d.rva.toNat + d.size.toNat⟩

end Range

namespace ImageMap

variable (m : ImageMap)

/-- The addresses of the section. -/
def sectionRange : Range := ⟨0x2000, 0x2000 + m.text.dataSize.toNat⟩

/-- The import tables, from the lookup table to the end of the import directory. -/
def importTables : Range := ⟨m.entry.lookup.toNat, m.imports.rva.toNat + m.imports.size.toNat⟩

/-- The zero bytes before the entry point. -/
def gap : Range := ⟨m.fields.entryPoint.toNat - 64, m.fields.entryPoint.toNat⟩

/-- The jump at the entry point. -/
def jumpRange : Range := ⟨m.fields.entryPoint.toNat, m.fields.entryPoint.toNat + 6⟩

/-- The import tables, the main method, the metadata, the header of the managed runtime,
the zero bytes and the jump. -/
def parts : List Range :=
  [m.importTables, ⟨m.mainAddress.toNat, m.mainAddress.toNat + m.mainSize⟩, .ofDirectory m.metadata,
    .ofDirectory m.cli, m.gap, m.jumpRange]

/-- How the places of an image have to agree with each other and with the file. -/
structure Sound (file : Bytes) : Prop where
  headersEnd_lt : m.headersEnd < 0x200
  length_file : file.length = 0x200 + m.text.dataSize.toNat
  dataSize_mod : m.text.dataSize.toNat % 0x200 = 0
  virtualSize : m.text.virtualSize = m.text.dataSize
  codeSize : m.fields.codeSize = m.text.dataSize
  /-- The section is loaded and stored where addresses are looked up. -/
  places : m.text.virtualAddress = 0x2000 ∧ m.text.dataOffset = 0x200
  /-- The size in memory is the least multiple of the section alignment that will do. -/
  imageSize : IsLeast { n | 0x2000 ∣ n ∧ 0x2000 + m.text.dataSize.toNat ≤ n }
    m.fields.imageSize.toNat
  directories_within : ∀ d ∈ [m.imports, m.addresses, m.cli, m.metadata],
    (Range.ofDirectory d).Within m.sectionRange
  parts_within : ∀ r ∈ m.parts, r.Within m.sectionRange
  parts_pairwise : m.parts.Pairwise fun r r' => r.stop ≤ r'.start
  gap_eq : fileAt? file m.gap.start 64 = some (zeros 64)
  /-- The entry point jumps through the first slot of the address table in memory. -/
  jump_eq : ∃ target : UInt32,
    target.toNat = m.fields.imageBase.toNat + m.addresses.rva.toNat ∧
      fileAt? file m.fields.entryPoint.toNat 6 = some ([0xff, 0x25] ++ word32 target)
  /-- The slot leads to the imported function, and the import entry to the slot. -/
  slot_eq : fileAt? file m.slot.toNat 14 = some (zeros 2 ++ utf8 "_CorExeMain" ++ [0])
  entry_eq : m.entry.addresses = m.addresses.rva ∧
    fileAt? file m.entry.library.toNat 12 = some (utf8 "mscoree.dll" ++ [0])
  imports_within : ∀ r ∈ [⟨m.slot.toNat, m.slot.toNat + 14⟩, .ofDirectory m.addresses,
      ⟨m.entry.library.toNat, m.entry.library.toNat + 12⟩, Range.ofDirectory m.imports],
    r.Within m.importTables

end ImageMap

/-! ## Records -/

theorem OptionalHeader.read?_systemFields (h : OptionalHeader) (rest : Bytes) :
    SystemFields.read? (h.bytes ++ rest) =
      some ⟨h.codeSize, h.entryPoint, imageBase, h.imageSize⟩ := by
  have hmagic : (word16 0x10b ++ [6, 0]).length = 4 := rfl
  have hbase : (word32 h.codeBase ++ zeros 4).length = 8 := rfl
  have halign : (word32 sectionAlignment ++ word32 fileAlignment ++ word16 5 ++ zeros 6 ++
    word16 5 ++ zeros 2 ++ zeros 4).length = 24 := rfl
  obtain ⟨tail, htail⟩ : ∃ tail, h.bytes ++ rest = (word16 0x10b ++ [6, 0]) ++
      (word32 h.codeSize ++ (zeros 8 ++ (word32 h.entryPoint ++
        ((word32 h.codeBase ++ zeros 4) ++ (word32 imageBase ++
          ((word32 sectionAlignment ++ word32 fileAlignment ++ word16 5 ++ zeros 6 ++ word16 5 ++
            zeros 2 ++ zeros 4) ++ (word32 h.imageSize ++ tail))))))) := by
    unfold bytes standardFields systemFields
    simp only [List.append_assoc]
    exact ⟨_, rfl⟩
  simp only [htail, SystemFields.read?, skip?_append hmagic, skip?_append (length_zeros 8),
    skip?_append hbase, skip?_append halign, readWord32?_word32, Option.bind_eq_bind,
    Option.bind_some]
  rfl

/-- An address of the section leads to the bytes at its offset. -/
theorem fileFrom?_append {headers data : Bytes} (hheaders : headers.length = 0x200) {n : Nat}
    (hn : n ≤ data.length) : fileFrom? (headers ++ data) (0x2000 + n) = some (data.drop n) := by
  have hle : 0x2000 ≤ 0x2000 + n := Nat.le_add_right _ _
  have hoffset : 0x2000 + n - 0x2000 + 0x200 = 0x200 + n := by omega
  have hskip : skip? (0x200 + n) (headers ++ data) = some (data.drop n) := by
    have hlength : (headers ++ data.take n).length = 0x200 + n := by
      rw [List.length_append, List.length_take, hheaders, Nat.min_eq_left hn]
    have h := skip?_append hlength (data.drop n)
    rwa [List.append_assoc, List.take_append_drop] at h
  simp only [fileFrom?, guard, if_pos hle, hoffset, hskip, Option.pure_def, Option.bind_eq_bind,
    Option.bind_some]

/-- The bytes at an address are those at its offset in the section. -/
theorem fileAt?_append {headers data bytes rest : Bytes} (hheaders : headers.length = 0x200)
    {n size : Nat} (hn : n ≤ data.length) (hdata : data.drop n = bytes ++ rest)
    (hsize : bytes.length = size) : fileAt? (headers ++ data) (0x2000 + n) size = some bytes := by
  rw [fileAt?, fileFrom?_append hheaders hn, hdata]
  simp [readBytes?_append hsize]

namespace Executable

/-! ## Import tables -/

/-- The import tables of every image: lookup table, name of the function, address table,
name of the library, and directory. -/
def importTables : Bytes :=
  Imports.slotTable 0x2008 ++ Imports.hintAndName ++ zeros 2 ++ Imports.slotTable 0x2008 ++
    Imports.libraryName ++ Imports.directoryBytes 0x2000 0x2020 0x2018

theorem addImports_text : Section.addImports { base := textAddress } =
    .ok (importPlaces, ⟨textAddress, importTables⟩) := by
  decide +kernel

theorem length_importTables : importTables.length = 0x54 := by
  decide +kernel

namespace Parts

variable {e : Executable} {guid : Guid} (p : e.Parts guid)

/-- The section is at least as long as its parts. -/
theorem le_length_data {n : Nat} (h : n ≤ 0x60 + e.metadataSize + 72 + jumpGap + 6) :
    n ≤ p.data.length := by
  rw [p.length_data]
  exact h.trans e.le_sectionSize

theorem imports_eq_importTables : p.imports = importTables := by
  have heq := p.addImports_eq.symm.trans addImports_text
  injection heq with heq
  injection heq with _ heq
  injection heq

/-- The import tables are the first part of the section. -/
theorem exists_data_eq_importTables : ∃ rest, p.data = importTables ++ rest := by
  rw [data, front, p.imports_eq_importTables, Bytes.padded, Bytes.padTo]
  simp only [List.append_assoc]
  exact ⟨_, rfl⟩

/-- The bytes at an address in the import tables. -/
theorem fileAt?_importTables {n size : Nat} (h : n + size ≤ 0x54) :
    fileAt? (p.headers ++ p.data) (0x2000 + n) size = some ((importTables.drop n).take size) := by
  have hlength := length_importTables
  obtain ⟨rest, hdata⟩ := p.exists_data_eq_importTables
  have hdrop : p.data.drop n =
      (importTables.drop n).take size ++ ((importTables.drop n).drop size ++ rest) := by
    rw [hdata, List.drop_append_of_le_length (by omega), ← List.append_assoc,
      List.take_append_drop]
  refine fileAt?_append p.length_headers (p.le_length_data (by omega)) hdrop ?_
  rw [List.length_take, List.length_drop]
  omega

/-! ## The end of the section -/

/-- The zero bytes and the jump stand behind the header of the managed runtime. -/
theorem exists_drop_gap :
    ∃ rest rest', p.data.drop (0x60 + e.metadataSize + 72) = zeros jumpGap ++ rest ∧
      p.data.drop (0x60 + e.metadataSize + 72 + jumpGap) =
        jump importPlaces.addresses.rva ++ rest' := by
  obtain ⟨rest, hdata⟩ : ∃ rest, p.data =
      p.front ++ (zeros jumpGap ++ (jump importPlaces.addresses.rva ++ rest)) := by
    rw [data, Bytes.padded, Bytes.padTo]
    simp only [List.append_assoc]
    exact ⟨_, rfl⟩
  have hgap : p.data.drop (0x60 + e.metadataSize + 72) =
      zeros jumpGap ++ (jump importPlaces.addresses.rva ++ rest) := by
    rw [hdata, List.drop_left' p.length_front]
  have hjump : p.data.drop (0x60 + e.metadataSize + 72 + jumpGap) =
      jump importPlaces.addresses.rva ++ rest := by
    rw [← List.drop_drop, hgap, List.drop_left' (length_zeros _)]
  exact ⟨_, _, hgap, hjump⟩

/-! ## The map -/

/-- The code of the main method. -/
theorem exists_readTinyMethod?_main :
    ∃ code, code.length = 11 ∧ ∀ rest, readTinyMethod? (p.main ++ rest) = some code := by
  obtain ⟨bytes, events, code, hmain, -, hlength, -, htiny⟩ :=
    exists_entryPoint Manifest.greetingToken Manifest.writeLineToken
  have heq := hmain.symm.trans p.entryPoint_eq
  injection heq with heq
  injection heq with heq _
  subst heq
  exact ⟨code, hlength, htiny⟩

theorem fileFrom?_main : ∃ rest, fileFrom? (p.headers ++ p.data) mainAddress.toNat =
    some (p.main ++ rest) := by
  obtain ⟨rest, _, _, hmain, -, -⟩ := p.exists_drop_data
  have haddress : mainAddress.toNat = 0x2000 + 0x54 := rfl
  have hle : 0x54 ≤ p.data.length := p.le_length_data (by omega)
  rw [haddress, fileFrom?_append p.length_headers hle, hmain]
  exact ⟨rest, rfl⟩

include p in
theorem metadataSize_pos : 0 < e.metadataSize := by
  rw [← p.length_layout]
  apply List.length_pos_of_ne_nil
  intro hnil
  have hread := p.loaded
  rw [hnil] at hread
  cases hread

/-- The places of an assembled executable. -/
def map : ImageMap where
  headersEnd := 0x80 + 4 + 20 + 0xe0 + 40 * 1
  fields := ⟨UInt32.ofNat p.assembled.text.offset, p.assembled.entryPoint, imageBase, e.imageSize⟩
  text := p.assembled.sectionHeader
  imports := importPlaces.directory
  addresses := importPlaces.addresses
  cli := p.assembled.cliHeader
  entry := ⟨0x2000, 0x2020, 0x2018⟩
  slot := 0x2008
  metadata := e.cliHeader.metadata
  mainAddress := mainAddress
  mainSize := 1 + 11

theorem importTables_map : p.map.importTables = ⟨0x2000, 0x2054⟩ := rfl

theorem range_imports : Range.ofDirectory p.map.imports = ⟨0x202c, 0x2054⟩ := rfl

theorem range_addresses : Range.ofDirectory p.map.addresses = ⟨0x2018, 0x2020⟩ := rfl

section Words

variable (h : e.Fits)
include h

theorem toNat_cliHeader :
    p.assembled.cliHeader.rva.toNat = 0x2000 + (0x60 + e.metadataSize) := by
  have hend := h.sectionSize_lt
  have hle := e.le_sectionSize
  have hbase : textAddress.toNat = 0x2000 := rfl
  have hword : 0x2060 + e.metadataSize < 2 ^ 32 := by omega
  calc p.assembled.cliHeader.rva.toNat = 0x2060 + e.metadataSize := UInt32.toNat_ofNat_of_lt hword
    _ = 0x2000 + (0x60 + e.metadataSize) := by omega

theorem toNat_entryPoint :
    p.assembled.entryPoint.toNat = 0x2000 + (0x60 + e.metadataSize + 72 + jumpGap) := by
  have hend := h.sectionSize_lt
  have hle := e.le_sectionSize
  have hbase : textAddress.toNat = 0x2000 := rfl
  have hword : 0x2060 + e.metadataSize + 72 + jumpGap < 2 ^ 32 := by omega
  calc p.assembled.entryPoint.toNat = 0x2060 + e.metadataSize + 72 + jumpGap :=
      UInt32.toNat_ofNat_of_lt hword
    _ = 0x2000 + (0x60 + e.metadataSize + 72 + jumpGap) := by omega

theorem toNat_metadataSize : e.cliHeader.metadata.size.toNat = e.metadataSize :=
  UInt32.toNat_ofNat_of_lt h.metadataSize_lt

theorem toNat_dataSize : p.assembled.sectionHeader.dataSize.toNat = e.sectionSize := by
  have hend := h.sectionSize_lt
  have hlt : e.sectionSize < 2 ^ 32 := by omega
  rw [← p.length_data] at hlt ⊢
  exact UInt32.toNat_ofNat_of_lt hlt

theorem toNat_imageSize : e.imageSize.toNat = alignUp (0x2000 + e.sectionSize) 0x2000 := by
  have hbase : textAddress.toNat = 0x2000 := rfl
  have hfits : 0x2000 + alignUp e.sectionSize 0x2000 < 2 ^ 32 := h
  have hword : (UInt32.ofNat (alignUp e.sectionSize 0x2000)).toNat =
      alignUp e.sectionSize 0x2000 := UInt32.toNat_ofNat_of_lt (Nat.lt_of_add_left_lt hfits)
  have hshift : 0x2000 + alignUp e.sectionSize 0x2000 =
      alignUp (0x2000 + e.sectionSize) 0x2000 := by
    simp only [alignUp]
    omega
  calc e.imageSize.toNat = (textAddress.toNat +
        (UInt32.ofNat (alignUp e.sectionSize 0x2000)).toNat) % 2 ^ 32 := UInt32.toNat_add _ _
    _ = 0x2000 + alignUp e.sectionSize 0x2000 := by
      rw [hword, hbase, Nat.mod_eq_of_lt hfits]
    _ = alignUp (0x2000 + e.sectionSize) 0x2000 := hshift

/-! ## Parts by their addresses -/

theorem fileAt?_layout : fileAt? (p.headers ++ p.data) e.cliHeader.metadata.rva.toNat
    e.cliHeader.metadata.size.toNat = some p.layout.bytes := by
  obtain ⟨_, rest, _, -, hlayout, -⟩ := p.exists_drop_data
  have haddress : e.cliHeader.metadata.rva.toNat = 0x2000 + 0x60 := rfl
  rw [haddress, toNat_metadataSize h]
  exact fileAt?_append p.length_headers (p.le_length_data (by omega)) hlayout p.length_layout

theorem fileAt?_cliHeader : fileAt? (p.headers ++ p.data) p.assembled.cliHeader.rva.toNat
    p.assembled.cliHeader.size.toNat = some e.cliHeader.bytes := by
  obtain ⟨_, _, rest, -, -, hcli⟩ := p.exists_drop_data
  rw [p.toNat_cliHeader h]
  exact fileAt?_append p.length_headers (p.le_length_data (by omega)) hcli rfl

theorem fileAt?_gap : fileAt? (p.headers ++ p.data) (p.assembled.entryPoint.toNat - 64) 64 =
    some (zeros 64) := by
  obtain ⟨rest, _, hgap, -⟩ := p.exists_drop_gap
  have haddress : p.assembled.entryPoint.toNat - 64 = 0x2000 + (0x60 + e.metadataSize + 72) := by
    rw [p.toNat_entryPoint h, jumpGap]
    omega
  rw [haddress]
  exact fileAt?_append p.length_headers (p.le_length_data (by omega)) hgap (length_zeros _)

theorem fileAt?_entryPoint : fileAt? (p.headers ++ p.data) p.assembled.entryPoint.toNat 6 =
    some (jump importPlaces.addresses.rva) := by
  obtain ⟨_, rest, -, hjump⟩ := p.exists_drop_gap
  rw [p.toNat_entryPoint h]
  exact fileAt?_append p.length_headers (p.le_length_data (by omega)) hjump rfl

/-- The places are read from the file. -/
theorem read?_file : ImageMap.read? (p.headers ++ p.data) = some p.map := by
  obtain ⟨rest, hfile⟩ := p.assembled.exists_padded_headerBytes e.imageSize p.data
  obtain ⟨rest', hplace⟩ := exists_skip?_dosStub (signature ++ (FileHeader.bytes {} ++
    ((p.assembled.optionalHeader e.imageSize).bytes ++ (p.assembled.sectionHeader.bytes ++ rest))))
  have hheader := readFileHeader?_append ((p.assembled.optionalHeader e.imageSize).bytes ++
    (p.assembled.sectionHeader.bytes ++ rest))
  rw [← hfile] at hplace hheader
  have hfields := (p.assembled.optionalHeader e.imageSize).read?_systemFields
    (p.assembled.sectionHeader.bytes ++ rest)
  have hopen := p.assembled.open?_padded_headerBytes e.imageSize p.data
  have himports : (p.assembled.directories ++ [Directory.none])[1]? = some ⟨0x202c, 40⟩ := rfl
  have haddresses : (p.assembled.directories ++ [Directory.none])[12]? = some ⟨0x2018, 8⟩ := rfl
  have hentryBytes := p.fileAt?_importTables (show 0x2c + 40 ≤ 0x54 by norm_num)
  have hentry : ImportEntry.read? ((importTables.drop 0x2c).take 40) =
      some ⟨0x2000, 0x2020, 0x2018⟩ := by decide +kernel
  have hslotBytes := p.fileAt?_importTables (show 0x18 + 8 ≤ 0x54 by norm_num)
  have hslot : readWord32? ((importTables.drop 0x18).take 8) = some (0x2008, zeros 4) := by
    decide +kernel
  have hstrings := (Manifest.size_strings_le e.options e.moduleName guid).trans_lt
    h.metadataSize_lt
  have hcli : readCliHeader? e.cliHeader.bytes = some (72, e.cliHeader) := by
    have hread := readCliHeader?_bytes e.cliHeader []
    rwa [List.append_nil] at hread
  obtain ⟨mainRest, hmain⟩ := p.fileFrom?_main
  obtain ⟨code, hcode, htiny⟩ := p.exists_readTinyMethod?_main
  have hmap := ImageMap.read?_eq_some hplace (readNumber?_word32 _ _) hheader hfields hopen rfl
    himports haddresses rfl hentryBytes hentry hslotBytes hslot (p.fileAt?_cliHeader h) hcli
    (p.fileAt?_layout h) p.loaded (Manifest.method?_loaded hstrings) hmain (htiny mainRest)
  rw [hcode] at hmap
  exact hmap

/-! ## Soundness -/

theorem sectionRange_map : p.map.sectionRange = ⟨0x2000, 0x2000 + e.sectionSize⟩ :=
  congrArg (fun n => Range.mk 0x2000 (0x2000 + n)) (p.toNat_dataSize h)

theorem range_metadata :
    Range.ofDirectory p.map.metadata = ⟨0x2060, 0x2060 + e.metadataSize⟩ :=
  congrArg (fun n => Range.mk 0x2060 (0x2060 + n)) (toNat_metadataSize h)

theorem range_cli : Range.ofDirectory p.map.cli =
    ⟨0x2060 + e.metadataSize, 0x2060 + e.metadataSize + 72⟩ := by
  have hsize : p.map.cli.size.toNat = 72 := rfl
  have haddress : p.map.cli.rva.toNat = 0x2060 + e.metadataSize :=
    (p.toNat_cliHeader h).trans (by omega)
  rw [Range.ofDirectory, hsize, haddress]

/-- The parts follow each other without gaps. -/
theorem parts_map : p.map.parts =
    [⟨0x2000, 0x2054⟩, ⟨0x2054, 0x2060⟩, ⟨0x2060, 0x2060 + e.metadataSize⟩,
      ⟨0x2060 + e.metadataSize, 0x2060 + e.metadataSize + 72⟩,
      ⟨0x2060 + e.metadataSize + 72, 0x2060 + e.metadataSize + 136⟩,
      ⟨0x2060 + e.metadataSize + 136, 0x2060 + e.metadataSize + 142⟩] := by
  have hentry : p.map.fields.entryPoint.toNat = 0x2060 + e.metadataSize + 136 := by
    have hword := p.toNat_entryPoint h
    rw [jumpGap] at hword
    exact hword.trans (by omega)
  have hmain : p.map.mainAddress.toNat = 0x2054 := rfl
  have hsize : p.map.mainSize = 12 := rfl
  rw [ImageMap.parts, p.importTables_map, hmain, hsize, p.range_metadata h, p.range_cli h,
    ImageMap.gap, ImageMap.jumpRange, hentry]
  rfl

/-- The places of an executable that fits are sound. -/
theorem sound_map : p.map.Sound (p.headers ++ p.data) := by
  have hsize : p.map.text.dataSize.toNat = e.sectionSize := p.toNat_dataSize h
  have hle := e.le_sectionSize
  have hpos := p.metadataSize_pos
  rw [jumpGap] at hle
  -- all bounds follow from the size of the metadata, and from what the section leaves for it
  constructor
  case headersEnd_lt =>
    have hend : p.map.headersEnd = 0x1a0 := rfl
    rw [hend]
    norm_num
  case length_file =>
    have hheaders : p.headers.length = 0x200 := p.length_headers
    rw [List.length_append, hheaders, p.length_data, hsize]
  case dataSize_mod =>
    rw [hsize]
    exact Nat.mul_mod_left _ _
  case virtualSize => rfl
  case codeSize => rfl
  case places => exact ⟨rfl, rfl⟩
  case imageSize =>
    have himage : p.map.fields.imageSize.toNat = alignUp (0x2000 + e.sectionSize) 0x2000 :=
      toNat_imageSize h
    rw [hsize, himage]
    exact isLeast_alignUp (by norm_num) _
  case directories_within =>
    rw [p.sectionRange_map h]
    simp only [List.forall_mem_cons, p.range_imports, p.range_addresses, p.range_cli h,
      p.range_metadata h, Range.Within]
    exact ⟨by omega, by omega, by omega, by omega, nofun⟩
  case parts_within =>
    rw [p.parts_map h, p.sectionRange_map h]
    simp only [List.forall_mem_cons, Range.Within]
    exact ⟨by omega, by omega, by omega, by omega, by omega, by omega, nofun⟩
  case parts_pairwise =>
    rw [p.parts_map h]
    simp only [List.pairwise_cons, List.forall_mem_cons, List.not_mem_nil, false_imp_iff,
      implies_true, and_true, List.Pairwise.nil]
    omega
  case gap_eq => exact p.fileAt?_gap h
  case jump_eq =>
    -- the address table is at a fixed place, so that the sum does not wrap
    refine ⟨imageBase + importPlaces.addresses.rva, ?_, p.fileAt?_entryPoint h⟩
    exact (show (imageBase + importPlaces.addresses.rva).toNat =
      imageBase.toNat + importPlaces.addresses.rva.toNat by decide)
  case slot_eq =>
    have hname : (importTables.drop 8).take 14 = zeros 2 ++ utf8 "_CorExeMain" ++ [0] := by
      decide +kernel
    have hslot : p.map.slot.toNat = 0x2000 + 8 := rfl
    rw [hslot, ← hname]
    exact p.fileAt?_importTables (by norm_num)
  case entry_eq =>
    have hname : (importTables.drop 0x20).take 12 = utf8 "mscoree.dll" ++ [0] := by
      decide +kernel
    have hlibrary : p.map.entry.library.toNat = 0x2000 + 0x20 := rfl
    rw [hlibrary, ← hname]
    exact ⟨rfl, p.fileAt?_importTables (by norm_num)⟩
  case imports_within =>
    have hslot : p.map.slot.toNat = 0x2008 := rfl
    have hlibrary : p.map.entry.library.toNat = 0x2020 := rfl
    rw [p.importTables_map, hslot, p.range_addresses, hlibrary, p.range_imports]
    simp only [List.forall_mem_cons, Range.Within]
    exact ⟨by omega, by omega, by omega, by omega, nofun⟩

end Words

end Parts

/-! ## Images -/

/-- Every executable that fits is assembled, and the places that are found in its file are
sound: sizes and addresses agree with the file, the parts of the section follow each other,
and the entry point jumps to the imported function. -/
theorem exists_sound_assemble {e : Executable} (hnew : e.assembled = none) (hfits : e.Fits)
    (fresh : Guid) :
    ∃ assembled events file m, e.assemble fresh = .ok (assembled, events) ∧
      assembled.bytes = .ok file ∧ ImageMap.read? file = some m ∧ m.Sound file := by
  obtain ⟨p⟩ := nonempty_parts hfits (e.options.moduleGuid.getD fresh)
  obtain ⟨events, hassemble⟩ := p.exists_assemble hfits hnew
  exact ⟨p.executable, events, _, p.map, hassemble, p.bytes_executable hfits, p.read?_file hfits,
    p.sound_map hfits⟩

theorem exists_sound_greeter :
    greeter.assembled = none ∧ greeter.Fits ∧
      ∃ assembled events file m, greeter.assemble Guid.nil = .ok (assembled, events) ∧
        assembled.bytes = .ok file ∧ ImageMap.read? file = some m ∧ m.Sound file := by
  have hfits : greeter.Fits := by decide
  exact ⟨rfl, hfits, exists_sound_assemble rfl hfits Guid.nil⟩

end Executable

end QuillImage.Image
