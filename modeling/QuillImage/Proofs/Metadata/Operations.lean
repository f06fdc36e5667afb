import Mathlib.Tactic
import QuillImage.Proofs.Metadata.Database

/-!
# Runs of operations on a database

A database is filled by operations in any order. Each gives a reply: a reference to what
was inserted, the reason why an insertion is rejected, or whether there was a row to
change. `Operation.run_of_insertion?` says once what an insertion into a heap does, and
`Operation.heaps_run_of_insertion?_eq_none` that all other operations leave the heaps alone.

So over a run heaps only grow, and what they held before stays where it is
(`growTo_runAll`), and their sizes stay multiples of four (`aligned_runAll`).
-/

namespace QuillImage.Metadata

open Text

/-! ## Heaps by name -/

namespace HeapName

/-- The reference to an entry of the heap at an offset. -/
def reference : HeapName → Nat → UInt32
  | strings, offset | blob, offset => UInt32.ofNat offset
  | userStrings, offset => 0x70000000 ||| UInt32.ofNat offset
  | guid, offset => UInt32.ofNat offset / 16 + 1

/-- The offset of the entry that a reference names. -/
def offsetOf : HeapName → UInt32 → Nat
  | strings, v | blob, v => v.toNat
  | userStrings, v => v.toNat % 0x1000000
  | guid, v => 16 * (v.toNat - 1)

/-- The sizes of the heap that references can cover. -/
def limit : HeapName → Nat
  | userStrings => 2 ^ 24
  | strings | blob | guid => 2 ^ 32

/-- The size of the heap is a multiple of this. -/
def alignment : HeapName → Nat
  | guid => 16
  | strings | userStrings | blob => 4

/-- The token of a literal is its offset below the high byte `0x70`. -/
theorem toNat_reference_userStrings {offset : Nat} (h : offset < 2 ^ 24) :
    (userStrings.reference offset).toNat = 0x70000000 + offset := by
  have hword : (UInt32.ofNat offset).toNat = offset := UInt32.toNat_ofNat_of_lt (by
    show offset < 2 ^ 32
    omega)
  have hor := Nat.two_pow_add_eq_or_of_lt h 0x70
  rw [reference, UInt32.toNat_or, hword]
  exact hor.symm

/-- The position of an identifier counts the identifiers before it. -/
theorem toNat_reference_guid {offset : Nat} (h : offset < 2 ^ 32) :
    (guid.reference offset).toNat = offset / 16 + 1 := by
  have hword : (UInt32.ofNat offset).toNat = offset := UInt32.toNat_ofNat_of_lt h
  rw [reference, UInt32.toNat_add, UInt32.toNat_div, hword]
  exact Nat.mod_eq_of_lt (show offset / 16 + 1 < 2 ^ 32 by omega)

/-- A reference names the offset that it was made of. -/
theorem offsetOf_reference (n : HeapName) {offset : Nat} (h : offset < n.limit)
    (hmod : offset % n.alignment = 0) : n.offsetOf (n.reference offset) = offset := by
  cases n with
  | strings | blob => exact UInt32.toNat_ofNat_of_lt h
  | userStrings =>
    have hlt : offset < 2 ^ 24 := h
    rw [offsetOf, toNat_reference_userStrings hlt]
    omega
  | guid =>
    have hmod' : offset % 16 = 0 := hmod
    rw [offsetOf, toNat_reference_guid h]
    omega

end HeapName

namespace Heaps

/-- The heap of a name. -/
def get (h : Heaps) : HeapName → Heap
  | .strings => h.strings
  | .userStrings => h.userStrings
  | .blob => h.blobs
  | .guid => h.guids

/-- The heaps with an entry inserted into one of them. -/
def insert (h : Heaps) (entry : Bytes) : HeapName → Heaps
  | .strings => { h with strings := (h.strings.insert entry).2 }
  | .userStrings => { h with userStrings := (h.userStrings.insert entry).2 }
  | .blob => { h with blobs := (h.blobs.insert entry).2 }
  | .guid => { h with guids := (h.guids.insert entry).2 }

@[simp]
theorem get_insert_self (h : Heaps) (entry : Bytes) (n : HeapName) :
    (h.insert entry n).get n = ((h.get n).insert entry).2 := by
  cases n <;> rfl

theorem get_insert_of_ne (h : Heaps) (entry : Bytes) {m n : HeapName} (hne : m ≠ n) :
    (h.insert entry n).get m = h.get m := by
  cases m <;> cases n <;> first | rfl | exact absurd rfl hne

/-- All references into the heaps can be told apart. -/
def Fits (h : Heaps) : Prop := ∀ n, (h.get n).size < n.limit

/-- The sizes of the heaps are multiples of their alignment. -/
def Aligned (h : Heaps) : Prop := ∀ n, (h.get n).size % n.alignment = 0

/-- What the heaps held before, they still hold in the same places. -/
def GrowTo (h h' : Heaps) : Prop := ∀ n, (h.get n).bytes <+: (h'.get n).bytes

theorem GrowTo.refl (h : Heaps) : h.GrowTo h := fun _ => List.prefix_rfl

theorem GrowTo.trans {h h' h'' : Heaps} (hgrow : h.GrowTo h') (hgrow' : h'.GrowTo h'') :
    h.GrowTo h'' :=
  fun n => (hgrow n).trans (hgrow' n)

theorem GrowTo.size_le {h h' : Heaps} (hgrow : h.GrowTo h') (n : HeapName) :
    (h.get n).size ≤ (h'.get n).size :=
  (hgrow n).length_le

theorem Aligned.mod_four {h : Heaps} (hh : h.Aligned) (n : HeapName) : (h.get n).size % 4 = 0 := by
  have hmod := hh n
  cases n with
  | guid =>
    simp only [HeapName.alignment] at hmod
    omega
  | _ => exact hmod

theorem aligned_initial : ({} : Heaps).Aligned := by
  intro n
  cases n <;> rfl

end Heaps

namespace Heap

/-- An insertion keeps what was there, and appends the entry. -/
theorem append_prefix_insert (h : Heap) (entry : Bytes) :
    h.bytes ++ entry <+: (h.insert entry).2.bytes := List.prefix_append _ _

/-- An insertion makes the heap larger by at least the entry. -/
theorem size_add_length_le (h : Heap) (entry : Bytes) :
    h.size + entry.length ≤ (h.insert entry).2.size := by
  have hle := (h.append_prefix_insert entry).length_le
  rwa [List.length_append] at hle

/-- An entry stands at its offset as long as the heap only grows. -/
theorem exists_skip?_of_prefix {h : Heap} {entry bytes : Bytes}
    (hgrow : (h.insert entry).2.bytes <+: bytes) :
    ∃ rest, skip? h.size bytes = some (entry ++ rest) := by
  obtain ⟨rest, rfl⟩ := (h.append_prefix_insert entry).trans hgrow
  rw [List.append_assoc]
  exact ⟨rest, skip?_append rfl _⟩

end Heap

/-! ## Operations -/

namespace Database

/-- An operation on a database. -/
inductive Operation where
  | string (s : String)
  | userString (s : String)
  | blob (value : Bytes)
  | guid (value : Bytes) (length_value : value.length = 16)
  /-- Appends a row, and asks for its position. -/
  | row {t : Table} (row : Row t)
  /-- Appends a row, and asks for its token. -/
  | rowToken {t : Table} (row : Row t)
  /-- Changes the row at a position. -/
  | setRow {t : Table} (index : UInt32) (row : Row t)

/-- What an operation gives back. -/
inductive Reply where
  | value (v : UInt32)
  | rejected (reason : Failure)
  /-- Whether there was a row to change. -/
  | changed (found : Bool)

/-- The reply to an insertion. A rejected one leaves the database as it was. -/
def reply (db : Database) : Except Failure (UInt32 × Database) → Reply × Database
  | .ok (v, db') => (.value v, db')
  | .error reason => (.rejected reason, db)

/-- Runs an operation. -/
def Operation.run (db : Database) : Operation → Reply × Database
  | string s => (db.addString s).map .value id
  | userString s => db.reply (db.addUserString s)
  | blob value => db.reply (db.addBlob value)
  | guid value _ => (db.addGuid value).map .value id
  | row r => (addRow r db).map .value id
  | rowToken r => (addRowToken r db).map .value id
  | setRow index r =>
    match db.setRow? index r with
    | some db' => (.changed true, db')
    | none => (.changed false, db)

/-- Runs operations one after the other. -/
def runAll (db : Database) : List Operation → List Reply × Database
  | [] => ([], db)
  | op :: ops =>
    let (reply, db) := op.run db
    let (replies, db) := db.runAll ops
    (reply :: replies, db)

namespace Operation

/-- The entry that an operation inserts, with its heap. -/
def insertion? : Operation → Option (HeapName × Bytes)
  | string s => some (.strings, stringEntry s)
  | userString s => (userStringEntry s).toOption.map (.userStrings, ·)
  | blob value => (blobEntry value).toOption.map (.blob, ·)
  | guid value _ => some (.guid, value)
  | row _ | rowToken _ | setRow _ _ => none

variable {op : Operation} {n : HeapName} {entry : Bytes} (db : Database)

theorem insertion?_userString {s : String} (h : userStringEntry s = .ok entry) :
    (userString s).insertion? = some (.userStrings, entry) := by
  simp [insertion?, h, Except.toOption]

theorem insertion?_blob {value : Bytes} (h : blobEntry value = .ok entry) :
    (blob value).insertion? = some (.blob, entry) := by
  simp [insertion?, h, Except.toOption]

/-- A literal that is rejected changes nothing. -/
theorem run_userString_of_error {s : String} {reason : Failure}
    (h : userStringEntry s = .error reason) :
    (userString s).run db = (.rejected reason, db) := by
  simp only [run, addUserString, Heap.insertUserString, h]
  rfl

/-- A binary value that is rejected changes nothing. -/
theorem run_blob_of_error {value : Bytes} {reason : Failure}
    (h : blobEntry value = .error reason) : (blob value).run db = (.rejected reason, db) := by
  simp only [run, addBlob, Heap.insertBlob, h]
  rfl

/-- An insertion into a heap appends its entry to the heap, and gives back a reference to
the end that the heap had before. -/
theorem run_of_insertion? (h : op.insertion? = some (n, entry)) :
    op.run db = (.value (n.reference (db.heaps.get n).size),
      { db with heaps := db.heaps.insert entry n }) := by
  cases op with
  | string s | guid value _ =>
    cases h
    rfl
  | userString s =>
    cases hs : userStringEntry s with
    | error reason => simp [insertion?, hs, Except.toOption] at h
    | ok entry' =>
      rw [insertion?_userString hs] at h
      cases h
      simp only [run, addUserString, Heap.insertUserString, hs]
      rfl
  | blob value =>
    cases hv : blobEntry value with
    | error reason => simp [insertion?, hv, Except.toOption] at h
    | ok entry' =>
      rw [insertion?_blob hv] at h
      cases h
      simp only [run, addBlob, Heap.insertBlob, hv]
      rfl
  | row r | rowToken r | setRow i r => cases h

/-- Rejected insertions, and operations on rows, leave the heaps alone. -/
theorem heaps_run_of_insertion?_eq_none (h : op.insertion? = none) :
    (op.run db).2.heaps = db.heaps := by
  cases op with
  | string s | guid value _ => cases h
  | userString s =>
    cases hs : userStringEntry s with
    | error reason => rw [run_userString_of_error db hs]
    | ok entry' =>
      rw [insertion?_userString hs] at h
      cases h
  | blob value =>
    cases hv : blobEntry value with
    | error reason => rw [run_blob_of_error db hv]
    | ok entry' =>
      rw [insertion?_blob hv] at h
      cases h
  | row r | rowToken r => rfl
  | setRow i r =>
    simp only [run]
    split
    · next hset =>
      obtain ⟨tables, -, rfl⟩ := Option.map_eq_some_iff.1 hset
      rfl
    · rfl

/-- Entries are not empty, and those of identifiers have 16 bytes. -/
theorem length_of_insertion? (h : op.insertion? = some (n, entry)) :
    0 < entry.length ∧ (n = .guid → entry.length = 16) := by
  cases op with
  | string s =>
    cases h
    simp [stringEntry]
  | guid value hvalue =>
    cases h
    exact ⟨by omega, fun _ => hvalue⟩
  | userString s =>
    simp only [insertion?, userStringEntry] at h
    split at h
    · cases h
    · cases h
      exact ⟨Nat.succ_pos _, nofun⟩
  | blob value =>
    simp only [insertion?, blobEntry] at h
    split at h
    · cases h
    · cases h
      exact ⟨Nat.succ_pos _, nofun⟩
  | row r | rowToken r | setRow i r => cases h

/-! ## One step -/

variable {db}

theorem growTo_run (op : Operation) (db : Database) : db.heaps.GrowTo (op.run db).2.heaps := by
  intro m
  cases h : op.insertion? with
  | none => rw [heaps_run_of_insertion?_eq_none db h]
  | some e =>
    obtain ⟨n, entry⟩ := e
    rw [run_of_insertion? db h]
    by_cases hm : m = n
    · subst hm
      rw [Heaps.get_insert_self]
      exact (List.prefix_append _ _).trans (Heap.append_prefix_insert _ entry)
    · rw [Heaps.get_insert_of_ne _ _ hm]

theorem aligned_run (op : Operation) (hdb : db.heaps.Aligned) : (op.run db).2.heaps.Aligned := by
  intro m
  cases h : op.insertion? with
  | none =>
    rw [heaps_run_of_insertion?_eq_none db h]
    exact hdb m
  | some e =>
    obtain ⟨n, entry⟩ := e
    rw [run_of_insertion? db h]
    by_cases hm : m = n
    · subst hm
      have hsize : ((db.heaps.get m).insert entry).2.size =
          alignUp ((db.heaps.get m).size + entry.length) 4 := by
        rw [Heap.insert, Heap.size, length_padded (by norm_num), List.length_append]
        rfl
      have hold := hdb m
      rw [Heaps.get_insert_self, hsize, alignUp]
      -- identifiers fill whole units of 16 bytes, all other entries are padded to four
      cases m with
      | guid =>
        have hentry := (length_of_insertion? h).2 rfl
        simp only [HeapName.alignment] at hold ⊢
        omega
      | _ =>
        simp only [HeapName.alignment]
        omega
    · rw [Heaps.get_insert_of_ne _ _ hm]
      exact hdb m

end Operation

/-! ## Runs -/

theorem runAll_cons (db : Database) (op : Operation) (ops : List Operation) :
    db.runAll (op :: ops) =
      ((op.run db).1 :: ((op.run db).2.runAll ops).1, ((op.run db).2.runAll ops).2) :=
  rfl

/-- What each operation preserves, all of them preserve. -/
theorem runAll_preserves {I : Database → Prop} (hstep : ∀ op db, I db → I (Operation.run db op).2)
    {db : Database} (h : I db) (ops : List Operation) : I (db.runAll ops).2 := by
  induction ops generalizing db with
  | nil => exact h
  | cons op ops ih =>
    rw [runAll_cons]
    exact ih (hstep op db h)

theorem growTo_runAll (db : Database) (ops : List Operation) :
    db.heaps.GrowTo (db.runAll ops).2.heaps :=
  runAll_preserves (I := fun db' => db.heaps.GrowTo db'.heaps)
    (fun op db' h => h.trans (op.growTo_run db')) (.refl _) ops

theorem aligned_runAll {db : Database} (h : db.heaps.Aligned) (ops : List Operation) :
    (db.runAll ops).2.heaps.Aligned :=
  runAll_preserves (I := fun db' => db'.heaps.Aligned) (fun op _ => op.aligned_run) h ops

end Database

end QuillImage.Metadata
