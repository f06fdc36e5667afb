import Mathlib.Tactic
import QuillImage.Proofs.Alignment
import QuillImage.Proofs.Halting
import QuillImage.Proofs.Image.Loader
import QuillImage.Proofs.Image.Manifest
import QuillImage.Proofs.Method.Code

/-!
# The parts of an assembled image

The section of an image is its import tables, the main method, the metadata, the
header of the managed runtime and a jump. `Executable.Parts` holds these as they come
out of their writers, with their sizes and what readers find in them. All addresses are
known from the size of the metadata, which is that of its names and of fixed parts;
`Executable.Fits` is the bound on it under which all addresses fit a word.

Main statements: an executable that fits is filled with its parts
(`Executable.Parts.exists_fill`), and the directories and addresses in its file lead to
the parts (`Executable.Parts.exists_image`).
-/

namespace QuillImage.Image

open Metadata Method

/-! ## Sections -/

namespace Section

variable {data : Bytes} {size : Nat} (hsize : data.length = size)
include hsize

/-- The address of the next byte of a section at the usual place. -/
theorem address_text (h : textAddress.toNat + size < 2 ^ 32) :
    address ⟨textAddress, data⟩ = .ok (UInt32.ofNat (textAddress.toNat + size)) := by
  have hword : (UInt32.ofNat size).toNat = size :=
    UInt32.toNat_ofNat_of_lt' ((Nat.le_add_left _ _).trans_lt h)
  rw [UInt32.ofNat_add, UInt32.ofNat_toNat, ← hsize]
  rw [← hword, ← hsize] at h
  exact addWords_of_lt h

/-- A section is not padded when its size is a multiple of four. -/
theorem align_four (h : size % 4 = 0) (base : UInt32) : align ⟨base, data⟩ 4 = ⟨base, data⟩ := by
  rw [← hsize] at h
  rw [align, padded_of_mod_eq_zero (by norm_num) h]

end Section

/-! ## Headers -/

namespace Assembled

variable (a : Assembled) (size : UInt32)

/-- The optional header of an image with a given size in memory. -/
def optionalHeader : OptionalHeader where
  codeSize := UInt32.ofNat a.text.offset
  entryPoint := a.entryPoint
  codeBase := textAddress
  imageSize := size
  headersSize := textOffset
  directories := a.directories

/-- The section header of an image. -/
def sectionHeader : SectionHeader := SectionHeader.text (UInt32.ofNat a.text.offset)

/-- All headers without the zero bytes after them. -/
def headerBytes : Bytes :=
  dosStub ++ signature ++ FileHeader.bytes {} ++ (a.optionalHeader size).bytes ++
    a.sectionHeader.bytes

theorem length_directories_le :
    (a.optionalHeader size).directories.length ≤ OptionalHeader.directoryCount := by
  have hlength : (a.optionalHeader size).directories.length = 15 := rfl
  rw [hlength]
  decide

theorem length_headerBytes : (a.headerBytes size).length = 0x1a0 := by
  have hsignature : signature.length = 4 := rfl
  have hfile : (FileHeader.bytes {}).length = 20 := rfl
  have hsection : a.sectionHeader.bytes.length = 40 := rfl
  simp only [headerBytes, List.length_append, length_dosStub, hsignature, hfile, hsection,
    OptionalHeader.length_bytes (a.length_directories_le size)]

/-- The headers are padded to the file alignment. -/
theorem headers_eq {a : Assembled} {size : UInt32} (h : a.imageSize = .ok size) :
    a.headers = .ok (Bytes.padded fileAlignment.toNat (a.headerBytes size)) := by
  rw [headers, h]
  rfl

theorem length_padded_headerBytes :
    (Bytes.padded fileAlignment.toNat (a.headerBytes size)).length = textOffset.toNat := by
  rw [length_padded (by decide), length_headerBytes]
  rfl

/-- A file starts with the headers. The zero bytes after them belong to what follows the
section header. -/
theorem exists_padded_headerBytes (data : Bytes) :
    ∃ rest, Bytes.padded fileAlignment.toNat (a.headerBytes size) ++ data =
      dosStub ++ (signature ++ (FileHeader.bytes {} ++ ((a.optionalHeader size).bytes ++
        (a.sectionHeader.bytes ++ rest)))) := by
  simp only [headerBytes, Bytes.padded, Bytes.padTo, List.append_assoc]
  exact ⟨_, rfl⟩

/-- The headers of a file are read back. -/
theorem open?_padded_headerBytes (data : Bytes) :
    LoadedImage.open? (Bytes.padded fileAlignment.toNat (a.headerBytes size) ++ data) =
      some ⟨Bytes.padded fileAlignment.toNat (a.headerBytes size) ++ data,
        a.directories ++ [Directory.none], [a.sectionHeader]⟩ := by
  obtain ⟨rest, hrest⟩ := a.exists_padded_headerBytes size data
  exact LoadedImage.open?_append (a.length_directories_le size) rfl hrest

end Assembled

namespace Executable

/-! ## Sizes -/

/-- The size of the metadata of an executable. -/
def metadataSize (e : Executable) : Nat := Manifest.metadataSize e.options e.moduleName

/-- The size of the section: import tables and main method, metadata, the header of the
managed runtime, the gap and the jump, up to the file alignment. -/
def sectionSize (e : Executable) : Nat :=
  alignUp (0x60 + e.metadataSize + 72 + jumpGap + 6) fileAlignment.toNat

/-- The size of the image in memory: the section from its address on, up to the section
alignment. -/
def imageSize (e : Executable) : UInt32 :=
  textAddress + UInt32.ofNat (alignUp e.sectionSize sectionAlignment.toNat)

/-- All addresses of the image fit a word: its section, up to the section alignment,
ends before `2 ^ 32`. -/
def Fits (e : Executable) : Prop :=
  textAddress.toNat + alignUp e.sectionSize sectionAlignment.toNat < 2 ^ 32

instance (e : Executable) : Decidable e.Fits := inferInstanceAs (Decidable (_ < _))

theorem metadataSize_mod_four (e : Executable) : e.metadataSize % 4 = 0 :=
  Manifest.metadataSize_mod_four e.options e.moduleName

theorem le_sectionSize (e : Executable) :
    0x60 + e.metadataSize + 72 + jumpGap + 6 ≤ e.sectionSize :=
  le_alignUp (by decide) _

theorem Fits.sectionSize_lt {e : Executable} (h : e.Fits) :
    textAddress.toNat + e.sectionSize < 2 ^ 32 :=
  lt_of_le_of_lt (Nat.add_le_add_left (le_alignUp (by decide) _) _) h

theorem Fits.metadataSize_lt {e : Executable} (h : e.Fits) : e.metadataSize < 2 ^ 32 := by
  have hend := h.sectionSize_lt
  have hle := e.le_sectionSize
  omega

/-! ## Assembly -/

/-- A new executable is assembled when its section is filled. -/
theorem assemble_of_fill {e : Executable} {fresh : Guid} {a : Assembled} {events : List Event}
    (hnew : e.assembled = none)
    (hfill : e.fill (e.options.moduleGuid.getD fresh) = .ok (a, events)) :
    e.assemble fresh = .ok ({ e with assembled := some a }, events) := by
  rw [assemble, hnew]
  simp only [hfill, bind, Except.bind]
  rfl

/-! ## Parts -/

/-- Where the import tables of every image are. -/
def importPlaces : Imports := ⟨⟨0x202c, 40⟩, ⟨0x2018, 8⟩⟩

/-- The address of the main method. -/
def mainAddress : UInt32 := 0x2054

/-- The address of the metadata. -/
def metadataAddress : UInt32 := 0x2060

/-- The header of the managed runtime. -/
def cliHeader (e : Executable) : CliHeader where
  metadata := ⟨metadataAddress, UInt32.ofNat e.metadataSize⟩
  flags := CliHeader.onlyManaged
  entryPoint := Manifest.mainToken

/-- The metadata of an executable. -/
def database (e : Executable) (guid : Guid) : Database :=
  Manifest.contents e.options e.moduleName guid (some mainAddress)

/-- The import tables, the main method and the metadata of an executable. -/
structure Parts (e : Executable) (guid : Guid) where
  imports : Bytes
  addImports_eq : Section.addImports { base := textAddress } =
    .ok (importPlaces, ⟨textAddress, imports⟩)
  length_imports : imports.length = 0x54
  main : Bytes
  mainEvents : List Event
  entryPoint_eq : entryPoint Manifest.greetingToken Manifest.writeLineToken =
    .ok (main, mainEvents)
  length_main : main.length = 12
  code : ∀ rest, (readTinyMethod? (main ++ rest)).bind readCode? =
    some [.ldstr Manifest.greetingToken, .call Manifest.writeLineToken, .ret]
  layout : Layout
  layout_eq : (e.database guid).layout = .ok layout
  size_layout : layout.size = UInt32.ofNat e.metadataSize
  length_layout : layout.bytes.length = e.metadataSize
  loaded : LoadedMetadata.read? layout.bytes = some (e.database guid).loaded

/-- An executable that fits has all parts. -/
theorem nonempty_parts {e : Executable} (h : e.Fits) (guid : Guid) : Nonempty (e.Parts guid) := by
  obtain ⟨main, mainEvents, code, hmain, hlmain, -, hcode, htiny⟩ :=
    exists_entryPoint Manifest.greetingToken Manifest.writeLineToken
  obtain ⟨layout, hlayout, hlength, hsize, hread⟩ :=
    Manifest.exists_layout guid mainAddress h.metadataSize_lt
  have hmethod : ∀ rest, (readTinyMethod? (main ++ rest)).bind readCode? =
      some [.ldstr Manifest.greetingToken, .call Manifest.writeLineToken, .ret] := by
    intro rest
    rw [htiny, Option.bind_some, hcode]
  exact ⟨_, rfl, rfl, main, mainEvents, hmain, hlmain, hmethod, layout, hlayout, hsize, hlength,
    hread⟩

namespace Parts

variable {e : Executable} {guid : Guid} (p : e.Parts guid)

/-- The section up to the gap before the jump. -/
def front : Bytes := p.imports ++ p.main ++ p.layout.bytes ++ e.cliHeader.bytes

/-- The whole section. -/
def data : Bytes :=
  Bytes.padded fileAlignment.toNat
    (p.front ++ zeros jumpGap ++ jump importPlaces.addresses.rva)

/-- The section of the executable with the places that the headers name. -/
def assembled : Assembled where
  text := ⟨textAddress, p.data⟩
  imports := importPlaces
  metadata := e.cliHeader.metadata
  cliHeader := ⟨UInt32.ofNat (0x2060 + e.metadataSize), CliHeader.size⟩
  mainToken := e.cliHeader.entryPoint
  entryPoint := UInt32.ofNat (0x2060 + e.metadataSize + 72 + jumpGap)

theorem length_front : p.front.length = 0x60 + e.metadataSize + 72 := by
  have hheader : e.cliHeader.bytes.length = 72 := rfl
  rw [front, List.length_append, List.length_append, List.length_append, p.length_imports,
    p.length_main, p.length_layout, hheader]

theorem length_data : p.data.length = e.sectionSize := by
  have hjump : (jump importPlaces.addresses.rva).length = 6 := rfl
  rw [data, length_padded (by decide), List.length_append, List.length_append, p.length_front,
    length_zeros, hjump, sectionSize]

/-! ## Addresses -/

theorem length_imports_main : (p.imports ++ p.main).length = 0x60 := by
  rw [List.length_append, p.length_imports, p.length_main]

theorem length_imports_main_layout :
    (p.imports ++ p.main ++ p.layout.bytes).length = 0x60 + e.metadataSize := by
  rw [List.length_append, p.length_imports_main, p.length_layout]

section Addresses

variable (h : e.Fits)
include h

theorem address_imports : Section.address ⟨textAddress, p.imports⟩ = .ok mainAddress := by
  refine Section.address_text p.length_imports ?_
  have hend := h.sectionSize_lt
  have hle := e.le_sectionSize
  omega

theorem address_main :
    Section.address ⟨textAddress, p.imports ++ p.main⟩ = .ok metadataAddress := by
  refine Section.address_text p.length_imports_main ?_
  have hend := h.sectionSize_lt
  have hle := e.le_sectionSize
  omega

theorem address_layout :
    Section.address ⟨textAddress, p.imports ++ p.main ++ p.layout.bytes⟩ =
      .ok (UInt32.ofNat (0x2060 + e.metadataSize)) := by
  have hend := h.sectionSize_lt
  have hle := e.le_sectionSize
  rw [Section.address_text p.length_imports_main_layout (by omega), ← Nat.add_assoc]
  rfl

theorem address_gap :
    Section.address ⟨textAddress, p.front ++ zeros jumpGap⟩ =
      .ok (UInt32.ofNat (0x2060 + e.metadataSize + 72 + jumpGap)) := by
  have hend := h.sectionSize_lt
  have hle := e.le_sectionSize
  have hlength : (p.front ++ zeros jumpGap).length = 0x60 + e.metadataSize + 72 + jumpGap := by
    rw [List.length_append, p.length_front, length_zeros]
  rw [Section.address_text hlength (by omega), ← Nat.add_assoc, ← Nat.add_assoc, ← Nat.add_assoc]
  rfl

/-- An executable that fits is filled with its parts. -/
theorem exists_fill : ∃ events, e.fill guid = .ok (p.assembled, events) := by
  have hmod := e.metadataSize_mod_four
  have htoken : Table.methodDef.token (Manifest.unbound e.options e.moduleName guid).main =
      Manifest.mainToken := by
    show Table.methodDef.token 1 = Manifest.mainToken
    decide
  have hcode : entryPoint (Manifest.unbound e.options e.moduleName guid).greeting
      (Manifest.unbound e.options e.moduleName guid).writeLine = .ok (p.main, p.mainEvents) :=
    p.entryPoint_eq
  have hlayout : (Manifest.contents e.options e.moduleName guid (some mainAddress)).layout =
      .ok p.layout := p.layout_eq
  have hgap := p.address_gap h
  have hstop := Section.address_text p.length_data h.sectionSize_lt
  simp only [data, front, cliHeader] at hgap hstop
  unfold fill
  simp only [p.addImports_eq, bind, Except.bind, Manifest.build_eq, Except.mapError,
    Section.align_four p.length_imports (by norm_num), p.address_imports h, Manifest.bindMain_eq,
    hcode, Section.append,
    Section.align_four p.length_imports_main (by norm_num), hlayout, p.address_main h,
    Section.align_four p.length_imports_main_layout (by omega), p.address_layout h,
    p.size_layout, htoken, hgap]
  simp only [Section.align, hstop]
  exact ⟨_, rfl⟩

end Addresses

/-- The parts stand at their offsets. -/
theorem exists_drop_data :
    ∃ rest rest' rest'', p.data.drop 0x54 = p.main ++ rest ∧
      p.data.drop 0x60 = p.layout.bytes ++ rest' ∧
        p.data.drop (0x60 + e.metadataSize) = e.cliHeader.bytes ++ rest'' := by
  obtain ⟨tail, htail⟩ : ∃ tail, p.data =
      p.imports ++ (p.main ++ (p.layout.bytes ++ (e.cliHeader.bytes ++ tail))) := by
    simp only [data, front, Bytes.padded, Bytes.padTo, List.append_assoc]
    exact ⟨_, rfl⟩
  have hmain : p.data.drop 0x54 = p.main ++ (p.layout.bytes ++ (e.cliHeader.bytes ++ tail)) := by
    rw [htail, List.drop_left' p.length_imports]
  have hmetadata : p.data.drop 0x60 = p.layout.bytes ++ (e.cliHeader.bytes ++ tail) := by
    rw [show 0x60 = 0x54 + 12 by rfl, ← List.drop_drop, hmain, List.drop_left' p.length_main]
  have hheader : p.data.drop (0x60 + e.metadataSize) = e.cliHeader.bytes ++ tail := by
    rw [← List.drop_drop, hmetadata, List.drop_left' p.length_layout]
  exact ⟨_, _, _, hmain, hmetadata, hheader⟩

/-! ## The file -/

/-- The executable once it is assembled. -/
def executable : Executable := { e with assembled := some p.assembled }

/-- An executable that fits is assembled with its parts. -/
theorem exists_assemble {fresh : Guid} (p : e.Parts (e.options.moduleGuid.getD fresh))
    (h : e.Fits) (hnew : e.assembled = none) :
    ∃ events, e.assemble fresh = .ok (p.executable, events) := by
  obtain ⟨events, hfill⟩ := p.exists_fill h
  exact ⟨events, assemble_of_fill hnew hfill⟩

/-- The size of the image in memory fits a word. -/
theorem imageSize_assembled (h : e.Fits) : p.assembled.imageSize = .ok e.imageSize := by
  have hlt : alignUp e.sectionSize sectionAlignment.toNat < 2 ^ 32 :=
    lt_of_le_of_lt (Nat.le_add_left _ _) h
  have hword : (UInt32.ofNat (alignUp e.sectionSize sectionAlignment.toNat)).toNat =
      alignUp e.sectionSize sectionAlignment.toNat := UInt32.toNat_ofNat_of_lt' hlt
  have hoffset : (UInt32.ofNat p.assembled.text.offset).toNat = e.sectionSize := by
    rw [show p.assembled.text.offset = e.sectionSize from p.length_data]
    exact UInt32.toNat_ofNat_of_lt' ((Nat.le_add_left _ _).trans_lt h.sectionSize_lt)
  have halign : alignUp? 32 (UInt32.ofNat p.assembled.text.offset).toNat
      sectionAlignment.toNat = some (alignUp e.sectionSize sectionAlignment.toNat) := by
    rw [hoffset, alignUp?_of_pos (by decide), toWord?_eq_some_iff]
    exact ⟨hlt, rfl⟩
  rw [Assembled.imageSize, halign]
  refine addWords_of_lt ?_
  rw [hword]
  exact h

/-- The headers of the file. -/
def headers : Bytes :=
  Bytes.padded fileAlignment.toNat (p.assembled.headerBytes e.imageSize)

theorem length_headers : p.headers.length = textOffset.toNat :=
  p.assembled.length_padded_headerBytes e.imageSize

/-- The file of an assembled executable is its headers and its section. -/
theorem bytes_executable (h : e.Fits) : p.executable.bytes = .ok (p.headers ++ p.data) := by
  rw [Executable.bytes, executable]
  simp only [Assembled.headers_eq (p.imageSize_assembled h), bind, Except.bind]
  rfl

/-- The file of an assembled executable that fits is opened: directory 14 is the place of
the header of the managed runtime, and each address of the section leads to its bytes. -/
theorem exists_open (h : e.Fits) :
    ∃ file image, p.executable.bytes = .ok file ∧ LoadedImage.open? file = some image ∧
      image.directories[14]? = some p.assembled.cliHeader ∧
        ∀ n < e.sectionSize, image.from? (UInt32.ofNat (0x2000 + n)) = some (p.data.drop n) := by
  have hend := h.sectionSize_lt
  have hbase : textAddress.toNat = 0x2000 := rfl
  have hdata := p.length_data
  refine ⟨_, _, p.bytes_executable h,
    p.assembled.open?_padded_headerBytes e.imageSize p.data, rfl, fun n hn => ?_⟩
  have hword : 0x2000 + n < 2 ^ 32 := by omega
  have hrva : (UInt32.ofNat (0x2000 + n)).toNat = 0x2000 + n := UInt32.toNat_ofNat_of_lt hword
  refine (LoadedImage.from?_text p.length_headers (by omega) (by omega) (by omega)).trans ?_
  rw [hrva, hbase, Nat.add_sub_cancel_left]

/-- The directories and addresses of the file lead to the parts. -/
theorem exists_image (h : e.Fits) :
    ∃ file image rest, p.executable.bytes = .ok file ∧ LoadedImage.open? file = some image ∧
      image.directories[14]? = some p.assembled.cliHeader ∧
      image.contents? p.assembled.cliHeader = some e.cliHeader.bytes ∧
      image.contents? e.cliHeader.metadata = some p.layout.bytes ∧
      image.from? mainAddress = some (p.main ++ rest) := by
  obtain ⟨file, image, hfile, hopen, hdirectory, hfrom⟩ := p.exists_open h
  obtain ⟨rest, rest', rest'', hmain, hmetadata, hheader⟩ := p.exists_drop_data
  have hle := e.le_sectionSize
  have hcli : image.from? p.assembled.cliHeader.rva = some (e.cliHeader.bytes ++ rest'') := by
    rw [← hheader, ← hfrom _ (by omega), ← Nat.add_assoc]
    rfl
  have hroot : image.from? e.cliHeader.metadata.rva = some (p.layout.bytes ++ rest') := by
    rw [← hmetadata, ← hfrom _ (by omega)]
    rfl
  have hcode : image.from? mainAddress = some (p.main ++ rest) := by
    rw [← hmain, ← hfrom _ (by omega)]
    rfl
  have hsize : p.layout.bytes.length = e.cliHeader.metadata.size.toNat :=
    p.length_layout.trans (UInt32.toNat_ofNat_of_lt h.metadataSize_lt).symm
  exact ⟨file, image, rest, hfile, hopen, hdirectory, LoadedImage.contents?_of_from? hcli rfl,
    LoadedImage.contents?_of_from? hroot hsize, hcode⟩

end Parts

end Executable

end QuillImage.Image
