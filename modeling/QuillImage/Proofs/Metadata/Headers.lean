import Mathlib.Tactic
import QuillImage.Guid
import QuillImage.Proofs.Metadata.Operations
import QuillImage.Proofs.Metadata.Root

/-!
# The headers of metadata

What the front of metadata says (`Front.Describes`) is compared with the layout, and with
the bytes that the headers describe. Each header ends with padding up to a multiple of four,
which is the same counted from the start of the header and from the start of the metadata
(`Layout.Places.foldl_header`).

Main statement: in the metadata of every database the version text is padded with zeros,
the headers are those of the layout, the streams follow each other without gaps from the
end of the headers to the end of the metadata, at offsets that are multiples of four, and
each header describes the bytes of its heap or of the tables
(`Database.readFront?_layout`).
-/

namespace QuillImage.Metadata

/-! ## Padding -/

/-- The second run of bytes is the first one with zeros up to the next multiple of four. -/
def IsPadded (content bs : Bytes) : Prop :=
  ∃ k < 4, bs = content ++ zeros k ∧ bs.length % 4 = 0

theorem isPadded_padded (content : Bytes) : IsPadded content (Bytes.padded 4 content) := by
  obtain ⟨k, hk, heq⟩ := exists_padded_eq_append_zeros (show 0 < 4 by norm_num) content
  refine ⟨k, hk, heq, ?_⟩
  rw [length_padded (by norm_num), alignUp, Nat.mul_mod_left]

/-! ## Streams that follow each other -/

/-- Streams that follow each other without gaps from a start to an end. -/
def Adjacent : (start : Nat) → List StreamHeader → (stop : Nat) → Prop
  | start, [], stop => start = stop
  | start, h :: headers, stop => h.offset = start ∧ Adjacent (start + h.size) headers stop

theorem Stream.adjacent_place {offset stop : UInt32} {payloads : List (String × Bytes)}
    {streams : List Stream} (h : place offset payloads = .ok (streams, stop)) :
    Adjacent offset.toNat (streams.map entry) stop.toNat := by
  induction payloads generalizing offset streams with
  | nil =>
    cases h
    rfl
  | cons p payloads ih =>
    obtain ⟨next, rest, hnext, hrest, rfl⟩ := exists_of_place_cons h
    have htail := ih hrest
    rw [← hnext] at htail
    exact ⟨rfl, htail⟩

/-- Streams whose sizes are multiples of four have such offsets if the first has. -/
theorem Adjacent.offset_mod_four {start stop : Nat} {headers : List StreamHeader}
    (h : Adjacent start headers stop) (hstart : start % 4 = 0)
    (hsizes : ∀ e ∈ headers, e.size % 4 = 0) : ∀ e ∈ headers, e.offset % 4 = 0 := by
  induction headers generalizing start with
  | nil => nofun
  | cons e headers ih =>
    obtain ⟨hsize, hsizes⟩ := List.forall_mem_cons.1 hsizes
    obtain ⟨hoffset, htail⟩ := h
    have hnext : (start + e.size) % 4 = 0 := by omega
    refine List.forall_mem_cons.2 ⟨?_, ih htail hnext hsizes⟩
    rw [hoffset, hstart]

/-! ## Layouts -/

namespace Layout.Places

variable {l : Layout} {db : Database} {tables : Bytes} (h : l.Places db tables)
include h

/-- The first offset is a multiple of four, since the version and the headers are padded. -/
theorem firstOffset_mod_four : firstOffset l.version % 4 = 0 := by
  obtain ⟨_, -, -, hmod⟩ := isPadded_padded (utf8 db.version ++ [0])
  rw [← h.version] at hmod
  have hheaders : total (streamNames.map Stream.headerSize) % 4 = 0 := by decide
  rw [firstOffset, Layout.rootSize]
  omega

/-- The front of the metadata, where each header is followed by zeros up to a multiple of four
from the start of the metadata. -/
theorem foldl_header :
    l.streams.foldl (fun front s => Bytes.padded 4
      (front ++ word32 s.offset ++ word32 s.size ++ utf8 s.name ++ [0])) l.root =
        l.root ++ l.streams.flatMap Stream.header := by
  have hheader (s : Stream) : s.header =
      Bytes.padded 4 (word32 s.offset ++ word32 s.size ++ (utf8 s.name ++ [0])) :=
    (padded_append (by norm_num) (by simp) _).symm
  have hfold (streams : List Stream) (front : Bytes) (hfront : front.length % 4 = 0) :
      streams.foldl (fun front s => Bytes.padded 4
        (front ++ word32 s.offset ++ word32 s.size ++ utf8 s.name ++ [0])) front =
          front ++ streams.flatMap Stream.header := by
    induction streams generalizing front with
    | nil => exact (List.append_nil front).symm
    | cons s streams ih =>
      have hnext : Bytes.padded 4
          (front ++ word32 s.offset ++ word32 s.size ++ utf8 s.name ++ [0]) =
            front ++ s.header := by
        rw [hheader, ← padded_append (by norm_num) hfront]
        simp only [List.append_assoc]
      rw [List.foldl_cons, hnext, ih, List.flatMap_cons, List.append_assoc]
      rw [← hnext, length_padded (by norm_num), alignUp, Nat.mul_mod_left]
  refine hfold _ _ ?_
  have hmod := h.firstOffset_mod_four
  have hheaders : total (streamNames.map Stream.headerSize) % 4 = 0 := by decide
  rw [l.length_root]
  rw [firstOffset] at hmod
  omega

/-- The streams start where the headers end. -/
theorem skip?_firstOffset :
    skip? (firstOffset l.version) l.bytes = some (l.streams.flatMap (·.data)) :=
  skip?_append h.length_front _

theorem adjacent (hlt : db.storedSize < 2 ^ 32) :
    Adjacent (firstOffset l.version) (l.streams.map Stream.entry) l.size.toNat := by
  have hstreams := Stream.adjacent_place h.place
  rwa [h.toNat_start hlt] at hstreams

/-- The sizes of the streams are multiples of four if those of the heaps are. -/
theorem size_mod_four (hdb : db.heaps.Aligned) {s : Stream} (hs : s ∈ l.streams) :
    s.size.toNat % 4 = 0 := by
  obtain ⟨_, -, -, htables⟩ := isPadded_padded tables
  have hmem : (s.name, s.data) ∈ db.payloads tables := by
    rw [← h.map_streams]
    exact List.mem_map_of_mem hs
  have hlength : s.data.length % 4 = 0 := by
    simp only [Database.payloads, List.mem_cons, Prod.mk.injEq, List.not_mem_nil, or_false] at hmem
    rcases hmem with ⟨-, hs⟩ | ⟨-, hs⟩ | ⟨-, hs⟩ | ⟨-, hs⟩ | ⟨-, hs⟩ <;> rw [hs]
    · exact hdb.mod_four .strings
    · exact hdb.mod_four .userStrings
    · exact hdb.mod_four .blob
    · exact hdb.mod_four .guid
    · exact htables
  have hword : s.size.toNat = s.data.length % 2 ^ 32 := UInt32.toNat_ofNat
  omega

end Layout.Places

/-! ## Databases that are filled by operations -/

/-- What the front of metadata has to say about a layout of a database with a version
text, where `rest` is what follows the front. -/
structure Front.Describes (front : Front) (rest : Bytes) (version : String) (db : Database)
    (l : Layout) : Prop where
  /-- The version text ends with a zero byte, and is padded. -/
  version : IsPadded (utf8 version ++ [0]) front.version
  headers : front.headers = l.streams.map Stream.entry
  names : front.headers.map StreamHeader.name =
    [utf8 "#Strings", utf8 "#US", utf8 "#Blob", utf8 "#GUID", utf8 "#~"]
  /-- The streams follow each other from the end of the headers to the end of the whole. -/
  adjacent : ∃ start, skip? start l.bytes = some rest ∧ Adjacent start front.headers l.size.toNat
  aligned : ∀ e ∈ front.headers, e.offset % 4 = 0 ∧ e.size % 4 = 0
  /-- The headers describe the heaps, and the tables with their padding. -/
  contents : ∃ tables stream, db.tables.stream db.heapSizes = .ok tables ∧
    IsPadded tables stream ∧ front.headers.map (·.cut? l.bytes) =
      [some db.heaps.strings.bytes, some db.heaps.userStrings.bytes, some db.heaps.blobs.bytes,
        some db.heaps.guids.bytes, some stream]

namespace Database

theorem Operation.version_run (op : Operation) (db : Database) :
    (op.run db).2.version = db.version := by
  cases op with
  | string s | guid value _ | row r | rowToken r => rfl
  | userString s =>
    simp only [run, addUserString]
    cases db.heaps.userStrings.insertUserString s <;> rfl
  | blob value =>
    simp only [run, addBlob]
    cases db.heaps.blobs.insertBlob value <;> rfl
  | setRow i r =>
    simp only [run, setRow?]
    cases db.tables.setRow? i.toNat r <;> rfl

theorem version_runAll (db : Database) (ops : List Operation) :
    (db.runAll ops).2.version = db.version := by
  apply runAll_preserves (I := fun db' => db'.version = db.version)
  · intro op db' h
    rw [op.version_run, h]
  · rfl

/-- Whatever operations fill a database, its metadata has the size that is recorded, as long as
it is less than `2 ^ 32`, and its front describes the layout and the bytes of the streams. -/
theorem readFront?_layout (version : String) (ops : List Operation) {l : Layout}
    (hl : (runAll { version } ops).2.layout = .ok l) (hlt : l.bytes.length < 2 ^ 32) :
    l.bytes.length = l.size.toNat ∧ ∃ front rest, readFront? l.bytes = some (front, rest) ∧
      front.Describes rest version (runAll { version } ops).2 l := by
  obtain ⟨tables, h⟩ := exists_places hl
  rw [h.length_bytes] at hlt
  have hversion : IsPadded (utf8 version ++ [0]) l.version := by
    rw [h.version, version_runAll]
    exact isPadded_padded _
  have hsizes : ∀ e ∈ l.streams.map Stream.entry, e.size % 4 = 0 := by
    intro e he
    obtain ⟨s, hs, rfl⟩ := List.mem_map.1 he
    exact h.size_mod_four (aligned_runAll Heaps.aligned_initial ops) hs
  have hcontents : (l.streams.map Stream.entry).map (·.cut? l.bytes) =
      l.streams.map fun s => some s.data := by
    rw [List.map_map]
    apply List.map_congr_left
    intro s hs
    exact h.cut?_entry hlt hs
  refine ⟨h.length_bytes.trans (h.toNat_size hlt).symm, _, _, h.readFront?_bytes hlt, ?_⟩
  constructor
  case version => exact hversion
  case headers => rfl
  case names =>
    have hnames := congrArg (List.map utf8) h.map_name_streams
    rwa [List.map_map] at hnames ⊢
  case adjacent => exact ⟨_, h.skip?_firstOffset, h.adjacent hlt⟩
  case aligned =>
    intro e he
    exact ⟨(h.adjacent hlt).offset_mod_four h.firstOffset_mod_four hsizes e he, hsizes e he⟩
  case contents =>
    refine ⟨tables, _, h.stream, isPadded_padded tables, hcontents.trans ?_⟩
    have hdata := congrArg (List.map fun p => some p.2) h.map_streams
    rwa [List.map_map] at hdata

/-- A module with a name and an identifier. -/
def namedModule : List Operation :=
  [.string "Main", .guid Guid.nil.bytes Guid.nil.length_bytes, .userString "Grüße",
    .blob [6, 8, 2], .row (Row.module 4 1)]

theorem readFront?_namedModule :
    ∃ l, (runAll { version := "v4.0.30319" } namedModule).2.layout = .ok l ∧
      l.bytes.length < 2 ^ 32 ∧ l.bytes.length = l.size.toNat ∧
        ∃ front rest, readFront? l.bytes = some (front, rest) ∧
          front.Describes rest "v4.0.30319"
            (runAll { version := "v4.0.30319" } namedModule).2 l := by
  have hsize : (runAll { version := "v4.0.30319" } namedModule).2.layout.map
      (fun l => l.bytes.length) = .ok 208 := by
    decide +kernel
  cases hl : (runAll { version := "v4.0.30319" } namedModule).2.layout with
  | error reason =>
    rw [hl] at hsize
    cases hsize
  | ok l =>
    rw [hl] at hsize
    have hlt : l.bytes.length < 2 ^ 32 := by
      rw [show l.bytes.length = 208 from Except.ok.inj hsize]
      norm_num
    exact ⟨l, rfl, hlt, readFront?_layout _ _ hl hlt⟩

end Database

end QuillImage.Metadata
