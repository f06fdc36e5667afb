import QuillImage.Image.Imports
import QuillImage.Image.Manifest
import QuillImage.Method.Header
import QuillImage.Path

/-!
# Executables

An executable is described by the place of its source, the name of its module and
the options. `Executable.assemble` fills its section once: import tables, main
method, metadata, the header of the managed runtime, and a jump into the runtime.
`Executable.bytes` is the image file.
-/

namespace QuillImage.Image

open Metadata Method

/-- The section of an image with the places that the headers name. -/
structure Assembled where
  text : Section
  imports : Imports
  metadata : Directory
  cliHeader : Directory
  /-- The token of the main method. -/
  mainToken : UInt32
  /-- The address at which the system starts the image. -/
  entryPoint : UInt32
  deriving DecidableEq, Repr

/-- An executable, assembled or not. -/
structure Executable where
  sourcePath : String
  moduleName : String
  options : Options
  assembled : Option Assembled := none
  deriving DecidableEq

/-- The zero bytes before the jump into the runtime. -/
def jumpGap : Nat := 64

/-- A jump through a slot of the address table. -/
def jump (slot : UInt32) : Bytes := [0xff, 0x25] ++ word32 (imageBase + slot)

namespace Executable

/-- The name of the image file. -/
def fileName (e : Executable) : String := e.moduleName ++ e.options.outputSuffix

/-- The path of the image file. -/
def outputPath (e : Executable) : String :=
  Path.outputPath e.sourcePath e.moduleName e.options.outputSuffix

/-- Fills the section of an image with a given identifier of the module. -/
def fill (e : Executable) (guid : Guid) : Except Halt (Assembled × List Event) := do
  let start : Section := { base := textAddress }
  let (imports, s) ← start.addImports
  let manifest ← (Manifest.build e.options e.moduleName guid).mapError .failure
  let mainToken := Table.methodDef.token manifest.main
  let s := s.align 4
  let mainRva ← s.address
  let database := manifest.bindMain mainRva
  let (main, mainEvents) ← Method.entryPoint manifest.greeting manifest.writeLine
  let s := (s.append main).align 4
  let layout ← database.layout
  let metadataRva ← s.address
  let s := (s.append layout.bytes).align 4
  let metadata : Directory := ⟨metadataRva, layout.size⟩
  let cliRva ← s.address
  let cliHeader : CliHeader := ⟨metadata, CliHeader.onlyManaged, mainToken⟩
  let s := (s.append cliHeader.bytes).append (zeros jumpGap)
  let entryPoint ← s.address
  let s := (s.append (jump imports.addresses.rva)).align fileAlignment.toNat
  let sectionEnd ← s.address
  let events :=
    .placedImports imports.directory.rva.toNat imports.addresses.rva.toNat :: mainEvents ++
      layout.events ++
      [.placedMetadata mainRva.toNat metadataRva.toNat layout.size.toNat,
        .completedSection e.fileName s.offset sectionEnd.toNat]
  return (⟨s, imports, metadata, ⟨cliRva, CliHeader.size⟩, mainToken, entryPoint⟩, events)

/-- Assembles an executable, once. The identifier `fresh` is used when the options
have none. -/
def assemble (e : Executable) (fresh : Guid) : Except Halt (Executable × List Event) :=
  match e.assembled with
  | some _ => .error (.failure (.alreadyAssembled e.fileName))
  | none => do
    let (assembled, events) ← e.fill (e.options.moduleGuid.getD fresh)
    return ({ e with assembled := some assembled }, events)

end Executable

namespace Assembled

/-- The directories of the headers: imports at 1, the address table at 12, the header
of the managed runtime at 14. -/
def directories (a : Assembled) : List Directory :=
  Directory.none :: a.imports.directory :: List.replicate 10 Directory.none ++
    [a.imports.addresses, Directory.none, a.cliHeader]

/-- The size of the image in memory: the section from its address on, up to the
section alignment. The size of the section is cut to a word. -/
def imageSize (a : Assembled) : Except Halt UInt32 :=
  match alignUp? 32 (UInt32.ofNat a.text.offset).toNat sectionAlignment.toNat with
  | some size => addWords textAddress (UInt32.ofNat size)
  | none => .error .overflow

/-- All headers, up to the file alignment. -/
def headers (a : Assembled) : Except Halt Bytes := do
  let size := UInt32.ofNat a.text.offset
  let optional : OptionalHeader :=
    { codeSize := size
      entryPoint := a.entryPoint
      codeBase := textAddress
      imageSize := ← a.imageSize
      headersSize := textOffset
      directories := a.directories }
  let fileHeader : FileHeader := {}
  return Bytes.padded fileAlignment.toNat
    (dosStub ++ signature ++ fileHeader.bytes ++ optional.bytes ++ (SectionHeader.text size).bytes)

end Assembled

/-- The image file: headers and section. -/
def Executable.bytes (e : Executable) : Except Halt Bytes :=
  match e.assembled with
  | none => .error (.failure (.unsetField "OptionalHeader" "ImportTable"))
  | some a => return (← a.headers) ++ a.text.data

end QuillImage.Image
