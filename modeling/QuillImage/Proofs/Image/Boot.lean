import Mathlib.Tactic
import QuillImage.Proofs.Image.Assembly
import QuillImage.Proofs.Metadata.Lookup

/-!
# Starting an image

`boot?` follows an image file the way a managed runtime does: from the directories to
the header of the runtime, from there to the metadata and to the first method, from the
code of this method to the literal and to the method that it calls, and from there to
the type and the library of the called method. Every step uses addresses, tokens,
offsets and positions that it finds in the bytes.

Main statement: the file of every executable that fits boots, and its code writes the
greeting with the method of the library that the options name
(`Executable.exists_boot?_assemble`).
-/

namespace QuillImage

namespace Image

open Metadata Method

/-- What is found on the way from an image file to the code that it starts with. -/
structure Startup where
  /-- The size of the header of the managed runtime. -/
  headerSize : UInt32
  metadata : Bytes
  mainName : Bytes
  mainAddress : UInt32
  /-- The literal that the main method loads. -/
  literal : List Char
  /-- The method that the main method calls. -/
  callee : MethodReference
  moduleName : Bytes
  moduleGuid : Guid

/-- The tokens of code that loads a literal, calls a method and returns. -/
def callWithLiteral? : List Instruction → Option (UInt32 × UInt32)
  | [.ldstr literal, .call callee, .ret] => some (literal, callee)
  | _ => none

/-- Follows an image file to the code that it starts with, which has to load a literal,
call a method and return. -/
def boot? (file : Bytes) : Option Startup := do
  let image ← LoadedImage.open? file
  let directory ← image.directories[14]?
  let (headerSize, header) ← readCliHeader? (← image.contents? directory)
  guard (headerSize = directory.size)
  let metadata ← image.contents? header.metadata
  let m ← LoadedMetadata.read? metadata
  let (mainAddress, mainName) ← m.method? header.entryPoint
  let code ← readCode? (← readTinyMethod? (← image.from? mainAddress))
  let (literal, callee) ← callWithLiteral? code
  let literal ← m.literal? literal
  let callee ← m.methodReference? callee
  let (moduleName, moduleGuid) ← m.module?
  return { headerSize, metadata, mainName, mainAddress, literal, callee, moduleName, moduleGuid }

/-- An image boots when each step finds what the next one needs. -/
theorem boot?_eq_some {file headerBytes metadata mainName method code moduleName : Bytes}
    {image : LoadedImage} {directory : Directory} {header : CliHeader} {m : LoadedMetadata}
    {mainAddress literal callee : UInt32} {text : List Char} {target : MethodReference}
    {moduleGuid : Guid} (hopen : LoadedImage.open? file = some image)
    (hdirectory : image.directories[14]? = some directory)
    (hcontents : image.contents? directory = some headerBytes)
    (hheader : readCliHeader? headerBytes = some (directory.size, header))
    (hroot : image.contents? header.metadata = some metadata)
    (hread : LoadedMetadata.read? metadata = some m)
    (hmethod : m.method? header.entryPoint = some (mainAddress, mainName))
    (hfrom : image.from? mainAddress = some method) (htiny : readTinyMethod? method = some code)
    (hcode : readCode? code = some [.ldstr literal, .call callee, .ret])
    (hliteral : m.literal? literal = some text)
    (hcallee : m.methodReference? callee = some target)
    (hmodule : m.module? = some (moduleName, moduleGuid)) :
    boot? file = some ⟨directory.size, metadata, mainName, mainAddress, text, target, moduleName,
      moduleGuid⟩ := by
  have hguard : (guard (directory.size = directory.size) : Option Unit) = some () := if_pos rfl
  refine Option.bind_eq_some_iff.2 ⟨image, hopen, ?_⟩
  refine Option.bind_eq_some_iff.2 ⟨directory, hdirectory, ?_⟩
  refine Option.bind_eq_some_iff.2 ⟨headerBytes, hcontents, ?_⟩
  refine Option.bind_eq_some_iff.2 ⟨_, hheader, ?_⟩
  refine Option.bind_eq_some_iff.2 ⟨_, hguard, ?_⟩
  refine Option.bind_eq_some_iff.2 ⟨metadata, hroot, ?_⟩
  refine Option.bind_eq_some_iff.2 ⟨m, hread, ?_⟩
  refine Option.bind_eq_some_iff.2 ⟨_, hmethod, ?_⟩
  refine Option.bind_eq_some_iff.2 ⟨method, hfrom, ?_⟩
  refine Option.bind_eq_some_iff.2 ⟨code, htiny, ?_⟩
  refine Option.bind_eq_some_iff.2 ⟨_, hcode, ?_⟩
  refine Option.bind_eq_some_iff.2 ⟨(literal, callee), rfl, ?_⟩
  refine Option.bind_eq_some_iff.2 ⟨text, hliteral, ?_⟩
  refine Option.bind_eq_some_iff.2 ⟨target, hcallee, ?_⟩
  exact Option.bind_eq_some_iff.2 ⟨_, hmodule, rfl⟩

end Image

/-! ## The manifest -/

namespace Image.Manifest

open Metadata

variable {o : Options} {moduleName : String} {guid : Guid} {mainRva : UInt32}

theorem row?_loaded (t : Table) :
    (contents o moduleName guid (some mainRva)).loaded.tables.row? t 1 =
      rowOf? o moduleName (some mainRva) t := by
  rw [Database.loaded, contents, row?_tables]

theorem rowByToken?_loaded {t : Table} {token : UInt32} (h : decodeToken token = (t.number, 1)) :
    (contents o moduleName guid (some mainRva)).loaded.rowByToken? t token =
      rowOf? o moduleName (some mainRva) t := by
  rw [LoadedMetadata.rowByToken?_of_decodeToken h, row?_loaded]

/-- The literal that the code refers to is the greeting. -/
theorem literal?_loaded :
    (contents o moduleName guid (some mainRva)).loaded.literal? greetingToken =
      some "Hello World".toList := by
  have hliteral : literalAt? (Heap.initial.insertAll [greetingEntry]).bytes 4 =
      some "Hello World".toList := by decide
  have htoken : decodeToken greetingToken = (0x70, 4) := by decide
  rw [LoadedMetadata.literal?_of_decodeToken htoken]
  exact hliteral

variable (hsize : (heaps o moduleName guid).strings.size < 2 ^ 32)
include hsize

/-- A name without U+0000 is found at its offset. -/
theorem nameAt?_loaded {n : Nat} {s : String} (hn : (names o moduleName)[n]? = some s)
    (hs : '\x00' ∉ s.toList) :
    nameAt? (contents o moduleName guid (some mainRva)).loaded.strings
      (nameOffset o moduleName n).toNat = some (utf8 s) := by
  obtain ⟨rest, hskip⟩ := exists_skip?_names hsize hn
  rw [Database.loaded, contents]
  exact nameAt?_of_skip?_of_notMem hs hskip

/-- The first method is the main method. -/
theorem method?_loaded :
    (contents o moduleName guid (some mainRva)).loaded.method? mainToken =
      some (mainRva, utf8 "Main") :=
  LoadedMetadata.method?_of_row (rowByToken?_loaded (by decide))
    (nameAt?_loaded hsize (n := 7) rfl (by decide))

/-- The called method is that of the console, in the library that the options name. -/
theorem methodReference?_loaded (hlibrary : '\x00' ∉ o.runtimeLibrary.toList) :
    (contents o moduleName guid (some mainRva)).loaded.methodReference? writeLineToken =
      some ⟨utf8 "WriteLine", utf8 "Console", utf8 "System",
        ⟨utf8 o.runtimeLibrary, o.runtimeVersion, o.runtimeKeyToken.bytes⟩⟩ := by
  have hkey : blobAt? (contents o moduleName guid (some mainRva)).loaded.blobs (blobOffset o 0).toNat =
      some o.runtimeKeyToken.bytes := by
    obtain ⟨rest, hskip⟩ := exists_skip?_blobs o moduleName guid (n := 0) rfl
    refine blobAt?_of_skip? ?_ hskip
    rw [o.runtimeKeyToken.length_bytes]
    decide
  exact LoadedMetadata.methodReference?_of_rows (rowByToken?_loaded (by decide)) rfl
    (row?_loaded .typeRef) rfl
    (nameAt?_loaded hsize (n := 6) rfl (by decide)) (nameAt?_loaded hsize (n := 4) rfl (by decide))
    (nameAt?_loaded hsize (n := 5) rfl (by decide))
    (LoadedMetadata.library?_of_row (row?_loaded .assemblyRef)
      (nameAt?_loaded hsize (n := 3) rfl hlibrary) hkey)

/-- The module has the name of the file, up to a first zero byte, and the identifier. -/
theorem module?_loaded :
    (contents o moduleName guid (some mainRva)).loaded.module? =
      some ((utf8 (moduleName ++ o.outputSuffix)).takeWhile (· ≠ 0), guid) := by
  have hname : nameAt? (contents o moduleName guid (some mainRva)).loaded.strings
      (nameOffset o moduleName 0).toNat =
        some ((utf8 (moduleName ++ o.outputSuffix)).takeWhile (· ≠ 0)) := by
    obtain ⟨rest, hskip⟩ := exists_skip?_names hsize (n := 0) rfl
    exact nameAt?_of_skip? hskip
  have hmvid : guidAt? (contents o moduleName guid (some mainRva)).loaded.guids 1 =
      some guid.stored := by
    have hfirst : [guid.stored][0]? = some guid.stored := rfl
    obtain ⟨rest, hskip⟩ := Heap.exists_skip?_insertAll Heap.empty hfirst
    exact guidAt?_of_skip? (length_stored guid) hskip
  exact LoadedMetadata.module?_of_row (row?_loaded .module) hname hmvid guid.ofStored?_stored

end Image.Manifest

/-! ## Images -/

namespace Image.Executable

open Metadata Method

/-- Every executable that fits is assembled, and its file boots: the main method, at an
address that is a multiple of four, writes the greeting with the method of the console
in the library that the options name, and the module has the name of the file and its
identifier. -/
theorem exists_boot?_assemble {e : Executable} (hnew : e.assembled = none) (hfits : e.Fits)
    (hlibrary : '\x00' ∉ e.options.runtimeLibrary.toList) (fresh : Guid) :
    ∃ assembled events file manifest layout mainAddress,
      e.assemble fresh = .ok (assembled, events) ∧
      assembled.bytes = .ok file ∧
      Manifest.build e.options e.moduleName (e.options.moduleGuid.getD fresh) = .ok manifest ∧
      (manifest.bindMain mainAddress).layout = .ok layout ∧
      mainAddress.toNat % 4 = 0 ∧
      boot? file = some
        { headerSize := 72
          metadata := layout.bytes
          mainName := utf8 "Main"
          mainAddress
          literal := "Hello World".toList
          callee :=
            { name := utf8 "WriteLine"
              typeName := utf8 "Console"
              typeSpace := utf8 "System"
              library :=
                { name := utf8 e.options.runtimeLibrary
                  version := e.options.runtimeVersion
                  keyToken := e.options.runtimeKeyToken.bytes } }
          moduleName := (utf8 e.fileName).takeWhile (· ≠ 0)
          moduleGuid := e.options.moduleGuid.getD fresh } := by
  obtain ⟨p⟩ := nonempty_parts hfits (e.options.moduleGuid.getD fresh)
  obtain ⟨events, hassemble⟩ := p.exists_assemble hfits hnew
  have hlayout : ((Manifest.unbound e.options e.moduleName
      (e.options.moduleGuid.getD fresh)).bindMain mainAddress).layout = .ok p.layout := by
    rw [Manifest.bindMain_eq]
    exact p.layout_eq
  obtain ⟨file, image, rest, hfile, hopen, hdirectory, hcli, hroot, hcode⟩ := p.exists_image hfits
  refine ⟨p.executable, events, file, _, p.layout, mainAddress, hassemble, hfile,
    Manifest.build_eq _ _ _, hlayout, by decide, ?_⟩
  have hstrings := (Manifest.size_strings_le e.options e.moduleName
    (e.options.moduleGuid.getD fresh)).trans_lt hfits.metadataSize_lt
  have hheader : readCliHeader? e.cliHeader.bytes = some (72, e.cliHeader) := by
    have h := readCliHeader?_bytes e.cliHeader []
    rwa [List.append_nil] at h
  obtain ⟨code, htiny, hinstructions⟩ := Option.bind_eq_some_iff.1 (p.code rest)
  exact boot?_eq_some hopen hdirectory hcli hheader hroot p.loaded
    (Manifest.method?_loaded hstrings) hcode htiny hinstructions Manifest.literal?_loaded
    (Manifest.methodReference?_loaded hstrings hlibrary) (Manifest.module?_loaded hstrings)

/-- An executable with a library and an identifier of its own. -/
def greeter : Executable where
  sourcePath := "greeter.quill"
  moduleName := "grüße"
  options :=
    { runtimeLibrary := "corlib"
      runtimeVersion := ⟨4, 0, 0, 0⟩
      runtimeKeyToken := ⟨[1, 2, 3, 4, 5, 6, 7, 8], rfl⟩
      metadataVersion := "v4.0.30319"
      moduleGuid := some Guid.nil
      outputSuffix := ".dll" }

theorem exists_boot?_greeter :
    greeter.assembled = none ∧ greeter.Fits ∧ '\x00' ∉ greeter.options.runtimeLibrary.toList ∧
      ∃ assembled events file startup,
        greeter.assemble Guid.nil = .ok (assembled, events) ∧ assembled.bytes = .ok file ∧
          boot? file = some startup ∧ startup.callee.library.name = utf8 "corlib" ∧
            startup.moduleName = utf8 "grüße.dll" := by
  have hfits : greeter.Fits := by decide
  have hlibrary : '\x00' ∉ greeter.options.runtimeLibrary.toList := by decide
  have hname : (utf8 greeter.fileName).takeWhile (· ≠ 0) = utf8 "grüße.dll" := by decide
  obtain ⟨assembled, events, file, _, _, _, hassemble, hbytes, -, -, -, hboot⟩ :=
    exists_boot?_assemble rfl hfits hlibrary Guid.nil
  exact ⟨rfl, hfits, hlibrary, assembled, events, file, _, hassemble, hbytes, hboot, rfl, hname⟩

end Image.Executable

end QuillImage
