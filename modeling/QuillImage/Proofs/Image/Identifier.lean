import Mathlib.Tactic
import QuillImage.Proofs.Image.Container
import QuillImage.Proofs.Metadata.Headers

/-!
# The identifier in an image

The identifier of the module is the only part of an image that is not fixed by the name of
the module and by the other options. It is stored once, as the stream of identifiers.
`AgreeAround` relates two runs that differ in the identifier: both stop in the same way, or
what they give agrees before and after the identifier. A run asks for the sizes of bytes that
hold the identifier, and never for their contents, so that all steps of two runs go together.
`streamPlace?` finds a stream in the bytes of an image file: from the headers to the
metadata, and from the stream header to the place of the stream.

Main statements: the images of an executable with two identifiers agree around these, whatever
its size is (`Executable.agreeAround_imageWith`); if the executable fits, there is an image for
every identifier, which is its stream of identifiers (`Executable.exists_imageWith_streamPlace?`).
-/

namespace QuillImage

/-! ## Metadata -/

namespace Metadata

/-- The stream with zeros in place of its contents, if it is that of the identifiers. -/
def Stream.blank (s : Stream) : Stream :=
  if s.name = "#GUID" then { s with data := zeros s.data.length } else s

/-- The layout with zeros in place of its identifiers. -/
def Layout.blank (l : Layout) : Layout := { l with streams := l.streams.map Stream.blank }

/-- The database with zeros in place of its identifiers. -/
def Database.blank (db : Database) : Database :=
  { db with heaps := { db.heaps with guids := ⟨zeros db.heaps.guids.size⟩ } }

namespace Stream

theorem name_blank (s : Stream) : s.blank.name = s.name := by
  rw [blank]
  split <;> rfl

theorem offset_blank (s : Stream) : s.blank.offset = s.offset := by
  rw [blank]
  split <;> rfl

theorem size_blank (s : Stream) : s.blank.size = s.size := by
  rw [blank]
  split
  · rw [size, length_zeros, size]
  · rfl

theorem header_blank (s : Stream) : s.blank.header = s.header := by
  rw [header, header, name_blank, offset_blank, size_blank]

/-- Streams are placed by their sizes. -/
theorem place_blank (offset : UInt32) (payloads : List (String × Bytes)) :
    place offset (payloads.map fun p =>
        (p.1, if p.1 = "#GUID" then zeros p.2.length else p.2)) =
      (place offset payloads).map fun r => (r.1.map blank, r.2) := by
  induction payloads generalizing offset with
  | nil => rfl
  | cons p payloads ih =>
    obtain ⟨name, data⟩ := p
    have hblank : (⟨name, offset, if name = "#GUID" then zeros data.length else data⟩ : Stream) =
        blank ⟨name, offset, data⟩ := by
      rw [blank]
      split <;> rfl
    rw [List.map_cons, place, place]
    dsimp only
    rw [hblank, size_blank]
    cases addWords offset (size ⟨name, offset, data⟩) with
    | error halt => rfl
    | ok next =>
      simp only [ok_bind, ih next]
      cases place next payloads with
      | error halt => rfl
      | ok r => rfl

end Stream

namespace Layout

theorem flatMap_header_blank (l : Layout) :
    l.blank.streams.flatMap Stream.header = l.streams.flatMap Stream.header := by
  rw [blank, List.flatMap_map]
  exact congrArg (l.streams.flatMap ·) (funext Stream.header_blank)

theorem events_blank (l : Layout) : l.blank.events = l.events := by
  rw [events, events, blank, List.map_map]
  refine congrArg _ (List.map_congr_left fun s _ => ?_)
  rw [Function.comp_apply, Stream.name_blank, Stream.offset_blank, Stream.size_blank]

end Layout

namespace Database

/-- The offset of the identifiers: the root, the stream headers and three streams come before
them. -/
def guidOffset (db : Database) : Nat :=
  firstOffset (Bytes.padded 4 (utf8 db.version ++ [0])) +
    (db.heaps.strings.size + db.heaps.userStrings.size + db.heaps.blobs.size)

theorem heapSizes_blank (db : Database) : db.blank.heapSizes = db.heapSizes := by
  simp only [heapSizes, blank, Heap.guidCount, Heap.wordSize, Heap.size, length_zeros]

/-- A database is laid out in the same way with zeros in place of its identifiers. -/
theorem layout_blank (db : Database) : db.blank.layout = db.layout.map Layout.blank := by
  have hsizes := db.heapSizes_blank
  cases hstream : db.tables.stream db.heapSizes with
  | error f =>
    have hblank : db.blank.tables.stream db.blank.heapSizes = .error f := by
      rw [hsizes]
      exact hstream
    rw [layout_of_stream_error hstream, layout_of_stream_error hblank]
    rfl
  | ok tables =>
    have hblank : db.blank.tables.stream db.blank.heapSizes = .ok tables := by
      rw [hsizes]
      exact hstream
    have hpayloads : db.blank.payloads tables = (db.payloads tables).map fun p =>
        (p.1, if p.1 = "#GUID" then zeros p.2.length else p.2) := rfl
    rw [layout_of_stream hstream, layout_of_stream hblank, hpayloads]
    dsimp only
    rw [Stream.place_blank, show db.blank.version = db.version from rfl]
    cases Stream.place (UInt32.ofNat (firstOffset (Bytes.padded 4 (utf8 db.version ++ [0]))))
        (db.payloads tables) with
    | error halt => rfl
    | ok r => rfl

end Database

namespace Layout.Places

variable {l : Layout} {db : Database} {tables : Bytes} (h : l.Places db tables)
include h

/-- The bytes of a layout around its identifiers. -/
theorem bytes_eq_around : l.bytes = l.root ++ l.streams.flatMap Stream.header ++
    (db.heaps.strings.bytes ++ db.heaps.userStrings.bytes ++ db.heaps.blobs.bytes) ++
      db.heaps.guids.bytes ++ Bytes.padded 4 tables := by
  have hdata : l.streams.flatMap (·.data) = (db.payloads tables).flatMap Prod.snd := by
    rw [← h.map_streams, List.flatMap_map]
  rw [bytes, hdata]
  simp [Database.payloads]

theorem length_before_guids : (l.root ++ l.streams.flatMap Stream.header ++
    (db.heaps.strings.bytes ++ db.heaps.userStrings.bytes ++ db.heaps.blobs.bytes)).length =
      db.guidOffset := by
  rw [List.length_append, h.length_front, List.length_append, List.length_append, h.version]
  rfl

/-- The header of the identifiers has their offset and their size. -/
theorem find?_guids (hlt : db.storedSize < 2 ^ 32) :
    (l.streams.map Stream.entry).find? (·.name = utf8 "#GUID") =
      some ⟨utf8 "#GUID", db.guidOffset, db.heaps.guids.size⟩ := by
  have hstart := h.toNat_start hlt
  have hplace := h.place
  rw [Database.storedSize] at hlt
  simp only [total] at hlt
  rw [Database.payloads] at hplace
  obtain ⟨second, rest₁, hsecond, hplace₁, hstreams⟩ := Stream.exists_of_place_cons hplace
  obtain ⟨third, rest₂, hthird, hplace₂, hrest₁⟩ := Stream.exists_of_place_cons hplace₁
  obtain ⟨fourth, rest₃, hfourth, hplace₃, hrest₂⟩ := Stream.exists_of_place_cons hplace₂
  obtain ⟨_, _, -, -, hrest₃⟩ := Stream.exists_of_place_cons hplace₃
  have hword (heap : Heap) (hheap : heap.size < 2 ^ 32) :
      (UInt32.ofNat heap.bytes.length).toNat = heap.size := UInt32.toNat_ofNat_of_lt' hheap
  rw [hword db.heaps.strings (by omega)] at hsecond
  rw [hword db.heaps.userStrings (by omega)] at hthird
  rw [hword db.heaps.blobs (by omega)] at hfourth
  have hoffset : fourth.toNat = db.guidOffset := by
    rw [Database.guidOffset, ← h.version]
    omega
  rw [← hoffset, ← hword db.heaps.guids (by omega), hstreams, hrest₁, hrest₂, hrest₃]
  rfl

end Layout.Places

/-- Databases that differ in nothing but their identifiers are both laid out or both not, and
the layouts agree around the identifiers. -/
theorem Database.layout_around {db₁ db₂ : Database} (h : db₁.blank = db₂.blank) :
    (∃ halt, db₁.layout = .error halt ∧ db₂.layout = .error halt) ∨
      ∃ l₁ l₂ before after, before.length = db₁.guidOffset ∧ db₁.layout = .ok l₁ ∧
        db₂.layout = .ok l₂ ∧ l₁.bytes = before ++ db₁.heaps.guids.bytes ++ after ∧
        l₂.bytes = before ++ db₂.heaps.guids.bytes ++ after ∧ l₁.size = l₂.size ∧
        l₁.events = l₂.events := by
  have hmap : db₁.layout.map Layout.blank = db₂.layout.map Layout.blank := by
    rw [← layout_blank, ← layout_blank, h]
  obtain hhalt | ⟨l₁, l₂, hl₁, hl₂, hl⟩ := cases_of_map_eq_map hmap
  · exact .inl hhalt
  obtain ⟨tables₁, hplaces₁⟩ := exists_places hl₁
  obtain ⟨tables₂, hplaces₂⟩ := exists_places hl₂
  have htables : tables₁ = tables₂ := by
    have hstream : db₁.blank.tables.stream db₁.blank.heapSizes = .ok tables₁ := by
      rw [heapSizes_blank]
      exact hplaces₁.stream
    rw [h, heapSizes_blank] at hstream
    exact Except.ok.inj (hstream.symm.trans hplaces₂.stream)
  have hroot : l₁.root = l₂.root := show l₁.blank.root = l₂.blank.root by rw [hl]
  have hsize : l₁.size = l₂.size := show l₁.blank.size = l₂.blank.size by rw [hl]
  have hheaders : l₁.streams.flatMap Stream.header = l₂.streams.flatMap Stream.header := by
    rw [← l₁.flatMap_header_blank, ← l₂.flatMap_header_blank, hl]
  have hstrings : db₁.heaps.strings = db₂.heaps.strings := congrArg (·.heaps.strings) h
  have huserStrings : db₁.heaps.userStrings = db₂.heaps.userStrings :=
    congrArg (·.heaps.userStrings) h
  have hblobs : db₁.heaps.blobs = db₂.heaps.blobs := congrArg (·.heaps.blobs) h
  have hbytes₂ := hplaces₂.bytes_eq_around
  rw [← hroot, ← hheaders, ← hstrings, ← huserStrings, ← hblobs, ← htables] at hbytes₂
  refine .inr ⟨l₁, l₂, _, _, hplaces₁.length_before_guids, hl₁, hl₂, hplaces₁.bytes_eq_around,
    hbytes₂, hsize, ?_⟩
  rw [← l₁.events_blank, ← l₂.events_blank, hl]

end Metadata

namespace Image

open Metadata Method

/-! ## Two runs -/

/-- Two runs with two identifiers: both stop in the same way, or both give bytes that agree
before and after the identifiers, which stand at a given offset, and all else that they give is
the same. -/
def AgreeAround {α : Type} (offset : Nat) (guid₁ guid₂ : Guid)
    (x₁ x₂ : Except Halt (Bytes × α)) : Prop :=
  (∃ halt, x₁ = .error halt ∧ x₂ = .error halt) ∨
    ∃ before after a, before.length = offset ∧ x₁ = .ok (before ++ guid₁.stored ++ after, a) ∧
      x₂ = .ok (before ++ guid₂.stored ++ after, a)

namespace AgreeAround

variable {α β : Type} {offset : Nat} {guid₁ guid₂ : Guid}

/-- Two runs go on together after a step that is the same in both. -/
theorem bind_same {x : Except Halt α} {f₁ f₂ : α → Except Halt (Bytes × β)}
    (h : ∀ a, AgreeAround offset guid₁ guid₂ (f₁ a) (f₂ a)) :
    AgreeAround offset guid₁ guid₂ (x >>= f₁) (x >>= f₂) := by
  cases x with
  | error halt => exact .inl ⟨halt, rfl, rfl⟩
  | ok a => exact h a

end AgreeAround

namespace Section

/-- A section that holds an identifier. -/
def around (base : UInt32) (before after : Bytes) (guid : Guid) : Section :=
  ⟨base, before ++ guid.stored ++ after⟩

variable {base : UInt32} {before after : Bytes} {guid : Guid}

theorem offset_around :
    (around base before after guid).offset = before.length + 16 + after.length := by
  rw [offset, around, List.length_append, List.length_append, Manifest.length_stored]

theorem address_around : (around base before after guid).address =
    addWords base (UInt32.ofNat (before.length + 16 + after.length)) := by
  rw [address, offset_around]
  rfl

theorem append_around (bytes : Bytes) :
    (around base before after guid).append bytes = around base before (after ++ bytes) guid := by
  simp only [append, around, List.append_assoc]

/-- The padding depends on the size of the section. -/
theorem align_around (alignment : Nat) :
    (around base before after guid).align alignment = around base before (after ++
      zeros (alignUp (before.length + 16 + after.length) alignment -
        (before.length + 16 + after.length))) guid := by
  have hlength : (around base before after guid).data.length =
      before.length + 16 + after.length := offset_around
  rw [align, Bytes.padded, Bytes.padTo, hlength]
  simp only [around, List.append_assoc]

/-- Bytes that hold an identifier make a section hold it. -/
theorem append_guid (front : Bytes) :
    append ⟨base, front⟩ (before ++ guid.stored ++ after) =
      around base (front ++ before) after guid := by
  simp only [append, around, List.append_assoc]

end Section

/-! ## Manifests -/

namespace Manifest

variable (o : Options) (moduleName : String)

theorem bytes_guids (guid : Guid) : (heaps o moduleName guid).guids.bytes = guid.stored := by
  have hmod : guid.stored.length % 4 = 0 := by rw [length_stored]
  exact padded_of_mod_eq_zero (by norm_num) hmod

/-- Manifests with different identifiers differ in nothing else. -/
theorem blank_contents (rva : Option UInt32) (guid₁ guid₂ : Guid) :
    (contents o moduleName guid₁ rva).blank = (contents o moduleName guid₂ rva).blank := by
  have hguids (guid : Guid) : (contents o moduleName guid rva).heaps.guids.size = 16 :=
    size_guids o moduleName guid
  rw [Database.blank, Database.blank, hguids, hguids]
  rfl

end Manifest

/-! ## Files -/

/-- The place of a stream in an image file: the offset of its first byte in the file, and
its size. -/
def streamPlace? (file : Bytes) (name : String) : Option (Nat × Nat) := do
  let m ← ImageMap.read? file
  let metadata ← fileAt? file m.metadata.rva.toNat m.metadata.size.toNat
  let (front, _) ← readFront? metadata
  let header ← front.headers.find? (·.name = utf8 name)
  let start := m.metadata.rva.toNat - m.text.virtualAddress.toNat + m.text.dataOffset.toNat
  return (start + header.offset, header.size)

namespace Executable

/-- The offset of the identifier in the file. The metadata starts at `0x260`. -/
def guidOffset (e : Executable) : Nat := 0x260 + (e.database Guid.nil).guidOffset

/-! ## Files that fit -/

namespace Parts

variable {e : Executable} {guid : Guid}

/-- The stream of identifiers is found in the file. -/
theorem streamPlace?_file (p : e.Parts guid) (h : e.Fits) :
    streamPlace? (p.headers ++ p.data) "#GUID" = some (e.guidOffset, 16) := by
  obtain ⟨tables, hplaces⟩ := Database.exists_places p.layout_eq
  have hlt : (e.database guid).storedSize < 2 ^ 32 := by
    rw [database, Manifest.storedSize_contents]
    exact h.metadataSize_lt
  have hfind := hplaces.find?_guids hlt
  rw [show (e.database guid).heaps.guids.size = 16 from
    Manifest.size_guids e.options e.moduleName guid] at hfind
  have hstart : p.map.metadata.rva.toNat - p.map.text.virtualAddress.toNat +
      p.map.text.dataOffset.toNat = 0x260 := by
    have haddress : p.map.metadata.rva.toNat = 0x2060 := rfl
    have hbase : p.map.text.virtualAddress.toNat = 0x2000 := rfl
    have hoffset : p.map.text.dataOffset.toNat = 0x200 := rfl
    rw [haddress, hbase, hoffset]
  have hmetadata : fileAt? (p.headers ++ p.data) p.map.metadata.rva.toNat
      p.map.metadata.size.toNat = some p.layout.bytes := p.fileAt?_layout h
  simp only [streamPlace?, p.read?_file h, hmetadata, hplaces.readFront?_bytes hlt, hfind, hstart,
    Option.bind_eq_bind, Option.bind_some, Option.pure_def]
  rfl

end Parts

/-! ## Images -/

/-- The image of an executable that is not assembled yet, with a given identifier. -/
def imageWith (e : Executable) (guid : Guid) : Except Halt (Bytes × List Event) := do
  let (assembled, events) ← e.fill guid
  return ((← assembled.headers) ++ assembled.text.data, events)

/-- An executable that fits has an image for every identifier, with the stream of identifiers at
its offset. -/
theorem exists_imageWith_streamPlace? {e : Executable} (h : e.Fits) (guid : Guid) :
    ∃ file events, e.imageWith guid = .ok (file, events) ∧
      streamPlace? file "#GUID" = some (e.guidOffset, 16) := by
  obtain ⟨p⟩ := nonempty_parts h guid
  obtain ⟨events, hfill⟩ := p.exists_fill h
  refine ⟨p.headers ++ p.data, events, ?_, p.streamPlace?_file h⟩
  simp only [imageWith, hfill, ok_bind, Assembled.headers_eq (p.imageSize_assembled h)]
  rfl

theorem streamPlace?_of_imageWith {e : Executable} (h : e.Fits) {guid : Guid} {file : Bytes}
    {events : List Event} (himage : e.imageWith guid = .ok (file, events)) :
    streamPlace? file "#GUID" = some (e.guidOffset, 16) := by
  obtain ⟨file', events', himage', hplace⟩ := exists_imageWith_streamPlace? h guid
  obtain ⟨rfl, -⟩ := Prod.mk.inj (Except.ok.inj (himage.symm.trans himage'))
  exact hplace

/-- Sections that differ in an identifier have the same headers. -/
theorem agreeAround_file (before after : Bytes) (guid₁ guid₂ : Guid) (imports : Imports)
    (metadata cliHeader : Directory) (mainToken entryPoint : UInt32) (events : List Event) :
    let a (guid : Guid) : Assembled :=
      ⟨.around textAddress before after guid, imports, metadata, cliHeader, mainToken, entryPoint⟩
    AgreeAround (0x200 + before.length) guid₁ guid₂
      ((a guid₁).headers >>= fun headers => pure (headers ++ (a guid₁).text.data, events))
      ((a guid₂).headers >>= fun headers => pure (headers ++ (a guid₂).text.data, events)) := by
  intro a
  have hheaders (guid : Guid) : (a guid).headers = (a guid₁).imageSize >>= fun size =>
      pure (Bytes.padded fileAlignment.toNat ((a guid₁).headerBytes size)) := by
    simp only [a, Assembled.headers, Assembled.imageSize, Assembled.headerBytes,
      Assembled.optionalHeader, Assembled.sectionHeader, Assembled.directories,
      Section.offset_around]
  rw [hheaders, hheaders guid₂, bind_assoc, bind_assoc]
  refine .bind_same fun size => ?_
  refine .inr ⟨Bytes.padded fileAlignment.toNat ((a guid₁).headerBytes size) ++ before, after,
    events, ?_, ?_, ?_⟩
  · rw [List.length_append, Assembled.length_padded_headerBytes]
    rfl
  · simp only [pure_bind, a, Section.around, List.append_assoc]
    rfl
  · simp only [pure_bind, a, Section.around, List.append_assoc]
    rfl

/-- The images of an executable with two identifiers agree around these. -/
theorem agreeAround_imageWith (e : Executable) (guid₁ guid₂ : Guid) :
    AgreeAround e.guidOffset guid₁ guid₂ (e.imageWith guid₁) (e.imageWith guid₂) := by
  obtain ⟨main, mainEvents, _, hmain, hlmain, -⟩ :=
    exists_entryPoint Manifest.greetingToken Manifest.writeLineToken
  have hcode (guid : Guid) : entryPoint (Manifest.unbound e.options e.moduleName guid).greeting
      (Manifest.unbound e.options e.moduleName guid).writeLine = .ok (main, mainEvents) := hmain
  have htoken (guid : Guid) : (Manifest.unbound e.options e.moduleName guid).main = 1 := rfl
  have hlength : (importTables ++ main).length = 0x60 := by
    rw [List.length_append, length_importTables, hlmain]
  have hstart : Section.address ⟨textAddress, importTables⟩ = .ok mainAddress :=
    Section.address_text length_importTables (by decide)
  have hroot : Section.address ⟨textAddress, importTables ++ main⟩ = .ok metadataAddress :=
    Section.address_text hlength (by decide)
  have happend : Section.append ⟨textAddress, importTables⟩ main =
      ⟨textAddress, importTables ++ main⟩ := rfl
  unfold imageWith fill
  simp only [addImports_text, ok_bind, Manifest.build_eq, Except.mapError,
    Section.align_four length_importTables (by norm_num), hstart, Manifest.bindMain_eq, hcode,
    happend, Section.align_four hlength (by norm_num), hroot, htoken, bind_assoc]
  obtain ⟨halt, hl₁, hl₂⟩ | ⟨l₁, l₂, before, after, hbefore, hl₁, hl₂, hbytes₁, hbytes₂, hsize,
    hevents⟩ := Database.layout_around
      (Manifest.blank_contents e.options e.moduleName (some mainAddress) guid₁ guid₂)
  · rw [hl₁, hl₂]
    exact .inl ⟨halt, rfl, rfl⟩
  · simp only [Manifest.contents] at hbytes₁ hbytes₂
    rw [Manifest.bytes_guids] at hbytes₁ hbytes₂
    rw [hl₁, hl₂]
    simp only [ok_bind, hbytes₁, hbytes₂, hsize, hevents, Section.append_guid, Section.align_around,
      Section.address_around, Section.append_around, Section.offset_around, pure_bind]
    refine .bind_same fun cliRva => ?_
    refine .bind_same fun entryPoint => ?_
    refine .bind_same fun sectionEnd => ?_
    have hoffset : e.guidOffset = 0x200 + (importTables ++ main ++ before).length := by
      rw [List.length_append, hlength, hbefore, guidOffset, ← Nat.add_assoc]
      rfl
    rw [hoffset]
    exact agreeAround_file ..

end Executable

end Image

end QuillImage
