import Mathlib.Tactic
import QuillImage.Guid
import QuillImage.Proofs.Metadata.Entries
import QuillImage.Proofs.Metadata.Operations

/-!
# References into heaps

An operation on a database gives back a reference to what it inserted. `Answers` says
what the reference has to lead to, as a reader of the heaps sees it. Since heaps only grow,
a reply that is right after one operation (`answers_run`) stays right whatever follows
(`forall₂_answers_runAll`).

Main statement: at the end of every run all references that were given back lead to what
was inserted, and the offsets in each heap are multiples of four that get larger from one
insertion to the next (`answers_runAll_and_offsets`).
-/

namespace QuillImage.Metadata.Database

open Text

/-- What the reply to an operation has to be, given the heaps at the end.

* The offset of a name leads to the name up to its first U+0000, and a zero byte. This is
  all of the name exactly if it has no U+0000.
* The token of a literal is an offset below the high byte `0x70`. The offset leads to the
  code units of the literal, and to a mark that is one exactly if some unit is special.
* The offset of a binary value leads to its length and to the value.
* The position of an identifier leads to the identifier.
* An insertion is rejected only if the literal has more than 63 code units, or the binary
  value more than 127 bytes. -/
def Answers (final : Heaps) : Operation → Reply → Prop
  | .string s, .value v =>
    nameAt? final.strings.bytes v.toNat = some (utf8 (beforeNul s)) ∧
      (nameAt? final.strings.bytes v.toNat = some (utf8 s) ↔ '\x00' ∉ s.toList)
  | .userString s, .value v =>
    v.toNat / 0x1000000 = 0x70 ∧ ∃ units mark,
      literalPartsAt? final.userStrings.bytes (v.toNat % 0x1000000) = some (units, mark) ∧
        decodeUtf16? units = some s.toList ∧ mark ≤ 1 ∧ (mark = 1 ↔ ∃ u ∈ units, IsSpecial u)
  | .userString s, .rejected reason =>
    63 < (utf16 s).length ∧ reason = .heapEntryTooLarge "#US" (utf16 s).length 63
  | .blob value, .value v => blobAt? final.blobs.bytes v.toNat = some value
  | .blob value, .rejected reason =>
    127 < value.length ∧ reason = .heapEntryTooLarge "#Blob" value.length 127
  | .guid value _, .value v => guidAt? final.guids.bytes v.toNat = some value
  | .row _, .value _ | .rowToken _, .value _ | .setRow _ _, .changed _ => True
  | _, _ => False

section Step

variable {op : Operation} {db : Database} {final : Heaps} {n : HeapName} {entry : Bytes}

/-- The offset of an entry is less than what references can cover. -/
theorem size_lt_limit (hgrow : (op.run db).2.heaps.GrowTo final) (hfits : final.Fits)
    (h : op.insertion? = some (n, entry)) : (db.heaps.get n).size < n.limit := by
  have hle := hgrow.size_le n
  rw [Operation.run_of_insertion? db h, Heaps.get_insert_self] at hle
  have hadd := (db.heaps.get n).size_add_length_le entry
  have hpos := (Operation.length_of_insertion? h).1
  have hlimit := hfits n
  omega

variable (hdb : db.heaps.Aligned) (hgrow : (op.run db).2.heaps.GrowTo final) (hfits : final.Fits)
include hdb hgrow hfits

/-- A reference leads to its entry. -/
theorem exists_skip?_reference (h : op.insertion? = some (n, entry)) :
    ∃ rest, skip? (n.offsetOf (n.reference (db.heaps.get n).size)) (final.get n).bytes =
      some (entry ++ rest) := by
  rw [n.offsetOf_reference (size_lt_limit hgrow hfits h) (hdb n)]
  apply Heap.exists_skip?_of_prefix
  have hbytes := hgrow n
  rwa [Operation.run_of_insertion? db h, Heaps.get_insert_self] at hbytes

/-- The reply to an operation is the right one for all heaps that come later. -/
theorem answers_run : Answers final op (op.run db).1 := by
  cases op with
  | string s =>
    obtain ⟨rest, hskip⟩ := exists_skip?_reference hdb hgrow hfits (n := .strings) rfl
    have hname : nameAt? final.strings.bytes (UInt32.ofNat db.heaps.strings.size).toNat =
        some ((utf8 s).takeWhile (· ≠ 0)) := nameAt?_of_skip? hskip
    constructor
    · exact hname.trans (congrArg some (takeWhile_utf8 s))
    · have hiff := takeWhile_utf8_eq_iff s
      rw [← Option.some_inj, ← hname] at hiff
      exact hiff
  | userString s =>
    cases hs : userStringEntry s with
    | error reason =>
      rw [Operation.run_userString_of_error db hs]
      exact (userStringEntry_eq_error_iff s reason).1 hs
    | ok entry =>
      have hentry := Operation.insertion?_userString hs
      obtain ⟨rest, hskip⟩ := exists_skip?_reference hdb hgrow hfits hentry
      have hlt : (db.heaps.get .userStrings).size < 2 ^ 24 := size_lt_limit hgrow hfits hentry
      -- the heap is small enough for the offset to stay below the high byte of the token
      have htoken := HeapName.toNat_reference_userStrings hlt
      rw [Operation.run_of_insertion? db hentry]
      refine ⟨by omega, _, _, literalPartsAt?_of_skip? hs hskip, decodeUtf16?_utf16 s, ?_, ?_⟩
      · split <;> omega
      · rw [← any_needsHandling_iff]
        split <;> simp_all
  | blob value =>
    cases hv : blobEntry value with
    | error reason =>
      rw [Operation.run_blob_of_error db hv]
      exact (blobEntry_eq_error_iff value reason).1 hv
    | ok entry =>
      have hentry := Operation.insertion?_blob hv
      obtain ⟨rest, hskip⟩ := exists_skip?_reference hdb hgrow hfits hentry
      rw [Operation.run_of_insertion? db hentry]
      exact blobAt?_of_blobEntry hv hskip
  | guid value hvalue =>
    obtain ⟨rest, hskip⟩ := exists_skip?_reference hdb hgrow hfits (n := .guid) rfl
    have hindex := HeapName.toNat_reference_guid (size_lt_limit hgrow hfits (n := .guid) rfl)
    -- positions count from one, and all identifiers before this one take 16 bytes
    rw [HeapName.offsetOf, hindex, Nat.add_sub_cancel] at hskip
    show guidAt? final.guids.bytes (HeapName.guid.reference (db.heaps.get .guid).size).toNat = _
    rw [hindex]
    exact guidAt?_of_skip? hvalue hskip
  | row r | rowToken r => trivial
  | setRow i r =>
    simp only [Operation.run]
    split <;> trivial

end Step

/-- Every reply of a run is the right one for all heaps that come later. -/
theorem forall₂_answers_runAll {db : Database} {final : Heaps} (hdb : db.heaps.Aligned)
    {ops : List Operation} (hgrow : (db.runAll ops).2.heaps.GrowTo final) (hfits : final.Fits) :
    List.Forall₂ (Answers final) ops (db.runAll ops).1 := by
  induction ops generalizing db with
  | nil => exact .nil
  | cons op ops ih =>
    rw [runAll_cons] at hgrow ⊢
    apply List.Forall₂.cons
    · exact answers_run hdb ((growTo_runAll _ ops).trans hgrow) hfits
    · exact ih (op.aligned_run hdb) hgrow

/-! ## Offsets -/

/-- The heap that an operation is about. -/
def Operation.heap? : Operation → Option HeapName
  | string _ => some .strings
  | userString _ => some .userStrings
  | blob _ => some .blob
  | guid _ _ => some .guid
  | row _ | rowToken _ | setRow _ _ => none

/-- The offset in a heap that the reply to an operation names. -/
def offset? (n : HeapName) (op : Operation) : Reply → Option Nat
  | .value v => if op.heap? = some n then some (n.offsetOf v) else none
  | .rejected _ | .changed _ => none

/-- The offsets in a heap that the replies to operations name, in the order of the
operations. -/
def offsets (n : HeapName) (ops : List Operation) (replies : List Reply) : List Nat :=
  (ops.zip replies).filterMap fun e => offset? n e.1 e.2

theorem offsets_cons (n : HeapName) (op : Operation) (ops : List Operation) (reply : Reply)
    (replies : List Reply) :
    offsets n (op :: ops) (reply :: replies) =
      (offset? n op reply).toList ++ offsets n ops replies := by
  rw [offsets, List.zip_cons_cons, List.filterMap_cons]
  cases offset? n op reply <;> rfl

theorem Operation.heap?_of_insertion? {op : Operation} {n : HeapName} {entry : Bytes}
    (h : op.insertion? = some (n, entry)) : op.heap? = some n := by
  cases op with
  | string s | guid value _ =>
    cases h
    rfl
  | userString s | blob value =>
    obtain ⟨_, -, he⟩ := Option.map_eq_some_iff.1 h
    cases he
    rfl
  | row r | rowToken r | setRow i r => cases h

/-- Rejected insertions, and operations on rows, name no offset. -/
theorem offset?_run_of_insertion?_eq_none (n : HeapName) {op : Operation} (db : Database)
    (h : op.insertion? = none) : offset? n op (op.run db).1 = none := by
  cases op with
  | string s | guid value _ => cases h
  | userString s =>
    cases hs : userStringEntry s with
    | error reason =>
      rw [Operation.run_userString_of_error db hs]
      rfl
    | ok entry =>
      rw [Operation.insertion?_userString hs] at h
      cases h
  | blob value =>
    cases hv : blobEntry value with
    | error reason =>
      rw [Operation.run_blob_of_error db hv]
      rfl
    | ok entry =>
      rw [Operation.insertion?_blob hv] at h
      cases h
  | row r | rowToken r => rfl
  | setRow i r =>
    simp only [Operation.run]
    split <;> rfl

/-- An insertion into one heap names no offset in another. -/
theorem offset?_run_of_ne {op : Operation} {m n : HeapName} {entry : Bytes} (db : Database)
    (h : op.insertion? = some (m, entry)) (hne : m ≠ n) : offset? n op (op.run db).1 = none := by
  rw [op.run_of_insertion? db h, offset?, Operation.heap?_of_insertion? h]
  exact if_neg fun heq => hne (Option.some.inj heq)

/-- An insertion names the end that its heap had before. -/
theorem offset?_run_self {op : Operation} {db : Database} {final : Heaps} {n : HeapName}
    {entry : Bytes} (hdb : db.heaps.Aligned) (hgrow : (op.run db).2.heaps.GrowTo final)
    (hfits : final.Fits) (h : op.insertion? = some (n, entry)) :
    offset? n op (op.run db).1 = some (db.heaps.get n).size := by
  rw [op.run_of_insertion? db h, offset?, Operation.heap?_of_insertion? h, if_pos rfl,
    n.offsetOf_reference (size_lt_limit hgrow hfits h) (hdb n)]

/-- The offsets that a run names in a heap are multiples of four, in increasing order, and
not less than the size that the heap had before. -/
theorem offsets_runAll {db : Database} {final : Heaps} (hdb : db.heaps.Aligned)
    {ops : List Operation} (hgrow : (db.runAll ops).2.heaps.GrowTo final) (hfits : final.Fits)
    (n : HeapName) :
    (∀ o ∈ offsets n ops (db.runAll ops).1, (db.heaps.get n).size ≤ o ∧ o % 4 = 0) ∧
      (offsets n ops (db.runAll ops).1).Pairwise (· < ·) := by
  induction ops generalizing db with
  | nil => simp [offsets, runAll]
  | cons op ops ih =>
    rw [runAll_cons] at hgrow ⊢
    obtain ⟨hlater, hpairwise⟩ := ih (op.aligned_run hdb) hgrow
    have hlater' : ∀ o ∈ offsets n ops ((op.run db).2.runAll ops).1,
        (db.heaps.get n).size ≤ o ∧ o % 4 = 0 := by
      intro o ho
      obtain ⟨hle, hmod⟩ := hlater o ho
      exact ⟨((op.growTo_run db).size_le n).trans hle, hmod⟩
    rw [offsets_cons]
    cases h : op.insertion? with
    | none =>
      rw [offset?_run_of_insertion?_eq_none n db h]
      exact ⟨hlater', hpairwise⟩
    | some e =>
      obtain ⟨m, entry⟩ := e
      by_cases hm : m = n
      · subst hm
        have hgrow' := (growTo_runAll _ ops).trans hgrow
        -- the entry is not empty, so the heap ends after the offset from now on
        have hlt : (db.heaps.get m).size < ((op.run db).2.heaps.get m).size := by
          have hadd := (db.heaps.get m).size_add_length_le entry
          have hpos := (Operation.length_of_insertion? h).1
          rw [op.run_of_insertion? db h, Heaps.get_insert_self]
          omega
        rw [offset?_run_self hdb hgrow' hfits h]
        constructor
        · exact List.forall_mem_cons.2 ⟨⟨le_rfl, hdb.mod_four m⟩, hlater'⟩
        · exact List.pairwise_cons.2 ⟨fun o ho => hlt.trans_le (hlater o ho).1, hpairwise⟩
      · rw [offset?_run_of_ne db h hm]
        exact ⟨hlater', hpairwise⟩

/-! ## References at the end of a run -/

/-- At the end of every run, as long as all references can be told apart, each operation
has its right answer, and the offsets that were given back for a heap are multiples of
four, each larger than those before. -/
theorem answers_runAll_and_offsets (version : String) (ops : List Operation)
    (hfits : (runAll { version } ops).2.heaps.Fits) :
    List.Forall₂ (Answers (runAll { version } ops).2.heaps) ops (runAll { version } ops).1 ∧
      ∀ n, (offsets n ops (runAll { version } ops).1).Pairwise (· < ·) ∧
        ∀ o ∈ offsets n ops (runAll { version } ops).1, o % 4 = 0 := by
  refine ⟨forall₂_answers_runAll Heaps.aligned_initial (.refl _) hfits, ?_⟩
  intro n
  obtain ⟨hoffsets, hpairwise⟩ := offsets_runAll Heaps.aligned_initial (.refl _) hfits n
  refine ⟨hpairwise, ?_⟩
  intro o ho
  exact (hoffsets o ho).2

/-- Insertions into all heaps with rows between them: a name with U+0000, a literal beyond
the basic plane, a literal and a binary value that are too long, and all kinds again. -/
def mixedOperations : List Operation :=
  [.string "a\x00b", .userString "𝄞", .row (Row.module 1 1),
    .userString (String.ofList (List.replicate 64 'x')), .guid Guid.nil.bytes Guid.nil.length_bytes,
    .blob (zeros 128), .setRow 1 (Row.module 4 1), .blob [1, 2, 3, 4], .string "Main",
    .userString "it's", .blob [], .guid Guid.nil.bytes Guid.nil.length_bytes,
    .rowToken (Row.module 12 2)]

theorem answers_mixedOperations :
    (runAll { version := "v1" } mixedOperations).2.heaps.Fits ∧
      List.Forall₂ (Answers (runAll { version := "v1" } mixedOperations).2.heaps) mixedOperations
        (runAll { version := "v1" } mixedOperations).1 ∧
      ∀ n, (offsets n mixedOperations (runAll { version := "v1" } mixedOperations).1).Pairwise
          (· < ·) ∧
        ∀ o ∈ offsets n mixedOperations (runAll { version := "v1" } mixedOperations).1,
          o % 4 = 0 := by
  have hfits : (runAll { version := "v1" } mixedOperations).2.heaps.Fits := by
    intro n
    cases n <;> decide +kernel
  exact ⟨hfits, answers_runAll_and_offsets "v1" mixedOperations hfits⟩

example : offsets .userStrings mixedOperations (runAll { version := "v1" } mixedOperations).1 =
    [4, 12] := by
  decide +kernel

end QuillImage.Metadata.Database
