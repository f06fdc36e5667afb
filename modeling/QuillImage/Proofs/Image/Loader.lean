import Mathlib.Tactic
import QuillImage.Image.Executable
import QuillImage.Proofs.Bytes

/-!
# Loading an image

A reader of image files that knows nothing but the bytes. `LoadedImage.open?` follows
the first header to the file header, and reads the directories and the section
headers; `LoadedImage.from?` finds the bytes at an address in the section that holds
it.

Main statements: the headers of an executable are read back
(`LoadedImage.open?_append`), and an address in its section leads to the bytes at the
offset of the address (`LoadedImage.from?_text`).
-/

namespace QuillImage.Image

/-! ## The reader -/

/-- Reads the place of a structure. -/
def readDirectory? (bs : Bytes) : Option (Directory × Bytes) := do
  let (rva, bs) ← readWord32? bs
  let (size, bs) ← readWord32? bs
  return (⟨rva, size⟩, bs)

/-- Reads a section header of 40 bytes. -/
def readSectionHeader? (bs : Bytes) : Option (SectionHeader × Bytes) := do
  let (name, bs) ← readBytes? 8 bs
  let (virtualSize, bs) ← readWord32? bs
  let (virtualAddress, bs) ← readWord32? bs
  let (dataSize, bs) ← readWord32? bs
  let (dataOffset, bs) ← readWord32? bs
  let bs ← skip? 12 bs
  let (characteristics, bs) ← readWord32? bs
  return ({ name, virtualSize, virtualAddress, dataSize, dataOffset, characteristics }, bs)

/-- Reads the header of the managed runtime, with the size that it records. -/
def readCliHeader? (bs : Bytes) : Option (UInt32 × CliHeader) := do
  let (size, bs) ← readWord32? bs
  let bs ← skip? 4 bs
  let (metadata, bs) ← readDirectory? bs
  let (flags, bs) ← readWord32? bs
  let (entryPoint, _) ← readWord32? bs
  return (size, { metadata, flags, entryPoint })

/-- Reads the file header, and gives back the number of sections, the size of the
optional header and the bytes after the file header. Its place stands at offset `0x3c`. -/
def readFileHeader? (file : Bytes) : Option (Nat × Nat × Bytes) := do
  let (place, _) ← readNumber? 4 (← skip? 0x3c file)
  let (signature, bs) ← readNumber? 4 (← skip? place file)
  guard (signature = 0x4550)
  let (sectionCount, bs) ← readNumber? 2 (← skip? 2 bs)
  let (optionalSize, bs) ← readNumber? 2 (← skip? 12 bs)
  return (sectionCount, optionalSize, ← skip? 2 bs)

/-- Reads the directories at the end of an optional header. -/
def readDirectories? (optional : Bytes) : Option (List Directory) := do
  let (magic, bs) ← readNumber? 2 optional
  guard (magic = 0x10b)
  let (count, bs) ← readNumber? 4 (← skip? 90 bs)
  let (directories, _) ← readList? readDirectory? count bs
  return directories

/-- An image file with what its headers say. -/
structure LoadedImage where
  file : Bytes
  directories : List Directory
  sections : List SectionHeader

namespace LoadedImage

/-- Reads the headers of an image file. The section headers follow the optional
header. -/
def open? (file : Bytes) : Option LoadedImage := do
  let (sectionCount, optionalSize, optional) ← readFileHeader? file
  let directories ← readDirectories? optional
  let (sections, _) ← readList? readSectionHeader? sectionCount (← skip? optionalSize optional)
  return { file, directories, sections }

/-- The bytes of the section that holds an address, from the address on. -/
def from? (image : LoadedImage) (rva : UInt32) : Option Bytes := do
  let s ← image.sections.find? fun s =>
    s.virtualAddress.toNat ≤ rva.toNat ∧ rva.toNat < s.virtualAddress.toNat + s.dataSize.toNat
  let (data, _) ← readBytes? s.dataSize.toNat (← skip? s.dataOffset.toNat image.file)
  return data.drop (rva.toNat - s.virtualAddress.toNat)

/-- The bytes of a structure, by its place. -/
def contents? (image : LoadedImage) (d : Directory) : Option Bytes := do
  let (bytes, _) ← readBytes? d.size.toNat (← image.from? d.rva)
  return bytes

end LoadedImage

/-! ## Records -/

theorem readDirectory?_bytes (d : Directory) (rest : Bytes) :
    readDirectory? (d.bytes ++ rest) = some (d, rest) := by
  simp only [readDirectory?, Directory.bytes, List.append_assoc, readWord32?_word32,
    Option.bind_eq_bind, Option.bind_some]
  rfl

theorem readSectionHeader?_bytes {s : SectionHeader} (hname : s.name.length = 8) (rest : Bytes) :
    readSectionHeader? (s.bytes ++ rest) = some (s, rest) := by
  simp only [readSectionHeader?, SectionHeader.bytes, List.append_assoc, readBytes?_append hname,
    readWord32?_word32, skip?_append (length_zeros 12), Option.bind_eq_bind, Option.bind_some]
  rfl

theorem readCliHeader?_bytes (h : CliHeader) (rest : Bytes) :
    readCliHeader? (h.bytes ++ rest) = some (CliHeader.size, h) := by
  have hversion : (word16 2 ++ word16 0).length = 4 := rfl
  have hbytes : h.bytes ++ rest = word32 CliHeader.size ++ ((word16 2 ++ word16 0) ++
      (h.metadata.bytes ++ (word32 h.flags ++ (word32 h.entryPoint ++ (zeros 48 ++ rest))))) := by
    simp only [CliHeader.bytes, List.append_assoc]
  simp only [hbytes, readCliHeader?, readWord32?_word32, skip?_append hversion,
    readDirectory?_bytes, Option.bind_eq_bind, Option.bind_some]
  rfl

/-! ## Headers -/

theorem length_dosStub : dosStub.length = 0x80 := by
  have hheader : dosHeader.length = 60 := rfl
  have hprogram : dosProgram.length = 57 := rfl
  rw [dosStub, Bytes.padTo]
  simp only [List.length_append, length_zeros, length_word32, hheader, hprogram]
  rfl

/-- The place of the file header is read from the first header. -/
theorem exists_skip?_dosStub (rest : Bytes) :
    ∃ rest', skip? 0x3c (dosStub ++ rest) = some (word32 signatureOffset ++ rest') := by
  have hlength : dosHeader.length = 0x3c := rfl
  rw [dosStub, Bytes.padTo, List.append_assoc, List.append_assoc, List.append_assoc]
  exact ⟨_, skip?_append hlength _⟩

/-- The directories of an optional header, with the empty ones at the end. -/
def OptionalHeader.allDirectories (h : OptionalHeader) : List Directory :=
  h.directories ++ List.replicate (directoryCount - h.directories.length) Directory.none

theorem OptionalHeader.length_allDirectories {h : OptionalHeader}
    (hdirectories : h.directories.length ≤ directoryCount) :
    h.allDirectories.length = directoryCount := by
  rw [allDirectories, List.length_append, List.length_replicate]
  omega

/-- The fields of an optional header between its first number and its directories. -/
def OptionalHeader.middleFields (h : OptionalHeader) : Bytes :=
  [6, 0] ++ word32 h.codeSize ++ zeros 8 ++ word32 h.entryPoint ++ word32 h.codeBase ++
    zeros 4 ++ word32 imageBase ++ word32 sectionAlignment ++ word32 fileAlignment ++
    word16 5 ++ zeros 6 ++ word16 5 ++ zeros 2 ++ zeros 4 ++
    word32 h.imageSize ++ word32 h.headersSize ++ zeros 4 ++ word16 3 ++ zeros 2 ++
    word32 0x100000 ++ word32 0x1000 ++ word32 0x100000 ++ word32 0x1000 ++ zeros 4

theorem OptionalHeader.bytes_eq (h : OptionalHeader) :
    h.bytes = word16 0x10b ++ (h.middleFields ++ (littleEndian 4 directoryCount ++
      h.allDirectories.flatMap Directory.bytes)) := by
  unfold bytes standardFields systemFields middleFields allDirectories
  simp only [List.append_assoc]

theorem OptionalHeader.length_middleFields (h : OptionalHeader) : h.middleFields.length = 90 := by
  unfold middleFields
  simp only [List.length_append, length_word16, length_word32, length_zeros, List.length_cons,
    List.length_nil]

theorem length_flatMap_directoryBytes (ds : List Directory) :
    (ds.flatMap Directory.bytes).length = 8 * ds.length := by
  have h : ∀ d : Directory, d.bytes.length = 8 := fun _ => rfl
  rw [length_flatMap_eq_total, funext h, total_map_const, Nat.mul_comm]

theorem OptionalHeader.length_bytes {h : OptionalHeader}
    (hdirectories : h.directories.length ≤ directoryCount) : h.bytes.length = 0xe0 := by
  simp only [h.bytes_eq, List.length_append, length_word16, h.length_middleFields,
    length_littleEndian, length_flatMap_directoryBytes, length_allDirectories hdirectories]
  rfl

/-- The file header of an image with one section is read back. -/
theorem readFileHeader?_append (rest : Bytes) :
    readFileHeader? (dosStub ++ (signature ++ (FileHeader.bytes {} ++ rest))) =
      some (1, 0xe0, rest) := by
  obtain ⟨rest', hplace⟩ := exists_skip?_dosStub (signature ++ (FileHeader.bytes {} ++ rest))
  have hheader : FileHeader.bytes {} ++ rest = word16 0x14c ++ (word16 1 ++
      ((word32 0 ++ zeros 8) ++ (word16 0xe0 ++ (word16 0x102 ++ rest)))) := by
    simp only [FileHeader.bytes, List.append_assoc]
  have htime : (word32 0 ++ zeros 8).length = 12 := rfl
  have hskip : skip? signatureOffset.toNat
      (dosStub ++ (signature ++ (FileHeader.bytes {} ++ rest))) =
      some (signature ++ (FileHeader.bytes {} ++ rest)) := skip?_append length_dosStub _
  simp only [readFileHeader?, hplace, hskip, Option.bind_eq_bind, Option.bind_some,
    readNumber?_word32]
  simp only [hheader, signature, Option.bind_some, readNumber?_word32, readNumber?_word16,
    skip?_append (length_word16 _), skip?_append htime]
  rfl

/-- The directories are read back. -/
theorem readDirectories?_append {h : OptionalHeader}
    (hdirectories : h.directories.length ≤ OptionalHeader.directoryCount) (rest : Bytes) :
    readDirectories? (h.bytes ++ rest) = some h.allDirectories := by
  have hlist := readList?_flatMap id h.allDirectories (fun d _ => readDirectory?_bytes d) rest
  rw [h.length_allDirectories hdirectories, List.map_id] at hlist
  have hcount : OptionalHeader.directoryCount < 256 ^ 4 := by decide
  simp only [readDirectories?, h.bytes_eq, List.append_assoc, readNumber?_word16,
    Option.bind_eq_bind, Option.bind_some, skip?_append h.length_middleFields,
    readNumber?_littleEndian hcount, hlist]
  rfl

namespace LoadedImage

/-- The headers of an image with one section are read back. -/
theorem open?_append {h : OptionalHeader}
    (hdirectories : h.directories.length ≤ OptionalHeader.directoryCount) {s : SectionHeader}
    (hname : s.name.length = 8) {file rest : Bytes}
    (hfile : file =
      dosStub ++ (signature ++ (FileHeader.bytes {} ++ (h.bytes ++ (s.bytes ++ rest))))) :
    open? file = some ⟨file, h.allDirectories, [s]⟩ := by
  have hheader : readFileHeader? file = some (1, 0xe0, h.bytes ++ (s.bytes ++ rest)) := by
    rw [hfile]
    exact readFileHeader?_append _
  have hoptional := skip?_append (OptionalHeader.length_bytes hdirectories) (s.bytes ++ rest)
  have hsections : readList? readSectionHeader? 1 (s.bytes ++ rest) = some ([s], rest) := by
    simp [readList?, readSectionHeader?_bytes hname]
  simp only [open?, hheader, Option.bind_eq_bind, Option.bind_some,
    readDirectories?_append hdirectories, hoptional, hsections]
  rfl

/-- An address in the section of an image leads to the bytes at its offset. -/
theorem from?_text {headers data : Bytes} (hheaders : headers.length = textOffset.toNat)
    (hdata : data.length < 2 ^ 32) {directories : List Directory} {rva : UInt32}
    (hlow : textAddress.toNat ≤ rva.toNat) (hhigh : rva.toNat < textAddress.toNat + data.length) :
    LoadedImage.from? ⟨headers ++ data, directories,
        [SectionHeader.text (UInt32.ofNat data.length)]⟩ rva =
      some (data.drop (rva.toNat - textAddress.toNat)) := by
  have hsize : (UInt32.ofNat data.length).toNat = data.length := UInt32.toNat_ofNat_of_lt hdata
  have hfind : [SectionHeader.text (UInt32.ofNat data.length)].find? (fun s =>
      s.virtualAddress.toNat ≤ rva.toNat ∧
        rva.toNat < s.virtualAddress.toNat + s.dataSize.toNat) =
      some (SectionHeader.text (UInt32.ofNat data.length)) := by
    refine List.find?_cons_of_pos ?_
    simp only [SectionHeader.text, hsize, decide_eq_true_eq]
    exact ⟨hlow, hhigh⟩
  have hskip : skip? textOffset.toNat (headers ++ data) = some data := skip?_append hheaders data
  have hread : readBytes? data.length data = some (data, []) := by
    have h := readBytes?_append (rfl : data.length = data.length) []
    rwa [List.append_nil] at h
  simp only [LoadedImage.from?, hfind, Option.bind_eq_bind, Option.bind_some]
  simp only [SectionHeader.text, hskip, hsize, hread, Option.bind_some]
  rfl

/-- A structure is the bytes at its address, up to its size. -/
theorem contents?_of_from? {image : LoadedImage} {d : Directory} {bytes rest : Bytes}
    (hfrom : image.from? d.rva = some (bytes ++ rest)) (hsize : bytes.length = d.size.toNat) :
    image.contents? d = some bytes := by
  simp [contents?, hfrom, readBytes?_append hsize]

end LoadedImage

end QuillImage.Image
