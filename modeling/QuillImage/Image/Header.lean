import QuillImage.Bytes

/-!
# Headers of an image

The fixed records at the start of an image file, and the header that the managed
runtime looks for. Each has a stored form `bytes` of a fixed size.
-/

namespace QuillImage.Image

/-! ## Constants of the layout -/

/-- The address at which the image prefers to be loaded. -/
def imageBase : UInt32 := 0x400000

/-- Sections are loaded at multiples of this. -/
def sectionAlignment : UInt32 := 0x2000

/-- Sections are stored at multiples of this. -/
def fileAlignment : UInt32 := 0x200

/-- The address of the section relative to the image base. -/
def textAddress : UInt32 := 0x2000

/-- The place of the section in the file. -/
def textOffset : UInt32 := 0x200

/-! ## Directories -/

/-- The place of a structure: its address relative to the image base, and its
size. -/
structure Directory where
  rva : UInt32
  size : UInt32
  deriving DecidableEq, Repr

namespace Directory

/-- The directory of a structure that is not there. -/
def none : Directory := ⟨0, 0⟩

/-- The stored form. -/
def bytes (d : Directory) : Bytes := word32 d.rva ++ word32 d.size

end Directory

/-! ## File headers -/

/-- The header for systems that cannot run the image, up to the place of the next
header. -/
def dosHeader : Bytes :=
  [0x4d, 0x5a, 0x90, 0, 0x03, 0, 0, 0, 0x04, 0, 0, 0, 0xff, 0xff, 0, 0, 0xb8, 0, 0, 0, 0, 0, 0,
    0, 0x40] ++ zeros 35

/-- The program for systems that cannot run the image. It prints a message and
exits. -/
def dosProgram : Bytes :=
  [0x0e, 0x1f, 0xba, 0x0e, 0x00, 0xb4, 0x09, 0xcd, 0x21, 0xb8, 0x01, 0x4c, 0xcd, 0x21] ++
    utf8 "This program cannot be run in DOS mode.\r\r\n$"

/-- The place of the signature in the file. -/
def signatureOffset : UInt32 := 0x80

/-- The first 128 bytes of the file. -/
def dosStub : Bytes :=
  (dosHeader ++ word32 signatureOffset ++ dosProgram).padTo signatureOffset.toNat

/-- The four bytes before the file header. -/
def signature : Bytes := word32 0x4550

/-- The file header. -/
structure FileHeader where
  machine : UInt16 := 0x14c
  sections : UInt16 := 1
  time : UInt32 := 0
  optionalSize : UInt16 := 0xe0
  characteristics : UInt16 := 0x102
  deriving DecidableEq, Repr

/-- The stored form. There is no symbol table. -/
def FileHeader.bytes (h : FileHeader) : Bytes :=
  word16 h.machine ++ word16 h.sections ++ word32 h.time ++ zeros 8 ++ word16 h.optionalSize ++
    word16 h.characteristics

/-- The header with what the system needs to load the image. -/
structure OptionalHeader where
  codeSize : UInt32
  entryPoint : UInt32
  codeBase : UInt32
  imageSize : UInt32
  headersSize : UInt32
  /-- The directories, at most 16. Those that are missing at the end are empty. -/
  directories : List Directory
  deriving DecidableEq, Repr

namespace OptionalHeader

/-- The number of directories in the header. -/
def directoryCount : Nat := 16

/-- The fields before the addresses that the system sets up. -/
def standardFields (h : OptionalHeader) : Bytes :=
  word16 0x10b ++ [6, 0] ++ word32 h.codeSize ++ zeros 8 ++ word32 h.entryPoint ++
    word32 h.codeBase ++ zeros 4

/-- The fields for the system: alignments, versions, sizes, and the reserves of stack
and heap. -/
def systemFields (h : OptionalHeader) : Bytes :=
  word32 imageBase ++ word32 sectionAlignment ++ word32 fileAlignment ++
    word16 5 ++ zeros 6 ++ word16 5 ++ zeros 2 ++ zeros 4 ++
    word32 h.imageSize ++ word32 h.headersSize ++ zeros 4 ++ word16 3 ++ zeros 2 ++
    word32 0x100000 ++ word32 0x1000 ++ word32 0x100000 ++ word32 0x1000 ++ zeros 4 ++
    littleEndian 4 directoryCount

/-- The stored form. -/
def bytes (h : OptionalHeader) : Bytes :=
  h.standardFields ++ h.systemFields ++
    (h.directories ++
      List.replicate (directoryCount - h.directories.length) Directory.none).flatMap
        Directory.bytes

end OptionalHeader

/-- The header of a section. -/
structure SectionHeader where
  /-- The name, eight bytes. -/
  name : Bytes
  virtualSize : UInt32
  virtualAddress : UInt32
  dataSize : UInt32
  dataOffset : UInt32
  characteristics : UInt32
  deriving DecidableEq, Repr

namespace SectionHeader

/-- The header of the one section, with code that can be read and run. -/
def text (size : UInt32) : SectionHeader :=
  { name := utf8 ".text" ++ zeros 3
    virtualSize := size
    virtualAddress := textAddress
    dataSize := size
    dataOffset := textOffset
    characteristics := 0x60000020 }

/-- The stored form. There are no relocations and line numbers. -/
def bytes (h : SectionHeader) : Bytes :=
  h.name ++ word32 h.virtualSize ++ word32 h.virtualAddress ++ word32 h.dataSize ++
    word32 h.dataOffset ++ zeros 12 ++ word32 h.characteristics

end SectionHeader

/-! ## Header of the managed runtime -/

/-- The header that the managed runtime looks for. -/
structure CliHeader where
  metadata : Directory
  flags : UInt32
  /-- The token of the method that runs first. -/
  entryPoint : UInt32
  deriving DecidableEq, Repr

namespace CliHeader

/-- The size of the header. -/
def size : UInt32 := 72

/-- The flag of an image without native code. -/
def onlyManaged : UInt32 := 1

/-- The stored form. Six directories after the token are empty. -/
def bytes (h : CliHeader) : Bytes :=
  word32 size ++ word16 2 ++ word16 0 ++ h.metadata.bytes ++ word32 h.flags ++
    word32 h.entryPoint ++ zeros 48

end CliHeader

end QuillImage.Image
