import Mathlib.Data.List.Forall2
import Mathlib.Tactic
import QuillImage.Proofs.Metadata.Entries

/-!
# Walking a heap from front to back

A heap has no directory. Whoever knows none of the offsets finds the entries by reading
one after the other from the front (`readAll?`). The zero bytes that pad an entry are read
as entries without content, however many they are, so that the walk is in step again at the
next entry. This is what one insertion preserves (`exists_splits_insert`), and so do any
insertions, rejected ones among them (`exists_splits_insertEach`).

Main statement: the walk reaches the end of the heap, and what it finds apart from empty
entries are the accepted literals or binary values in the order of their insertion, and
for names without U+0000 the names (`readAll?_insertEach`).
-/

namespace QuillImage

open Text

/-! ## Reading to the end -/

section ReadAll

variable {α : Type}

/-- Takes things from the front of a run until nothing is left of it. There is no result if
one of them cannot be read, or takes nothing from the run. -/
def readAll? (read? : Bytes → Option (α × Bytes)) : Bytes → Option (List α)
  | [] => some []
  | b :: bs =>
    match read? (b :: bs) with
    | none => none
    | some (a, rest) =>
      if rest.length ≤ bs.length then (readAll? read? rest).map (a :: ·) else none
termination_by bs => bs.length

variable {read? : Bytes → Option (α × Bytes)} {bs bs' : Bytes} {a : α} {as as' : List α}

/-- The reader takes the piece for the thing, whatever follows. -/
def Takes (read? : Bytes → Option (α × Bytes)) (piece : Bytes) (a : α) : Prop :=
  piece ≠ [] ∧ ∀ rest, read? (piece ++ rest) = some (a, rest)

/-- A run of pieces, which the reader takes for the things. -/
def Splits (read? : Bytes → Option (α × Bytes)) (bs : Bytes) (as : List α) : Prop :=
  ∃ pieces, bs = pieces.flatten ∧ List.Forall₂ (Takes read?) pieces as

theorem readAll?_append {piece : Bytes} (h : Takes read? piece a) (rest : Bytes) :
    readAll? read? (piece ++ rest) = (readAll? read? rest).map (a :: ·) := by
  obtain ⟨hne, hread⟩ := h
  obtain ⟨b, piece, rfl⟩ := List.exists_cons_of_ne_nil hne
  have hlength : rest.length ≤ (piece ++ rest).length := by simp
  have hread' := hread rest
  rw [List.cons_append] at hread' ⊢
  rw [readAll?, hread']
  exact if_pos hlength

/-- The things of a run are read one after the other, to its end. -/
theorem Splits.readAll?_eq (h : Splits read? bs as) : readAll? read? bs = some as := by
  obtain ⟨pieces, rfl, hpieces⟩ := h
  induction hpieces with
  | nil => rw [List.flatten_nil, readAll?]
  | cons htakes _ ih =>
    rw [List.flatten_cons, readAll?_append htakes, ih]
    rfl

theorem Splits.append (h : Splits read? bs as) (h' : Splits read? bs' as') :
    Splits read? (bs ++ bs') (as ++ as') := by
  obtain ⟨pieces, rfl, hpieces⟩ := h
  obtain ⟨pieces', rfl, hpieces'⟩ := h'
  exact ⟨pieces ++ pieces', List.flatten_append.symm, List.rel_append hpieces hpieces'⟩

theorem Takes.splits (h : Takes read? bs a) : Splits read? bs [a] :=
  ⟨[bs], by simp, .cons h .nil⟩

/-- Zero bytes are as many empty things, if one zero byte is one. -/
theorem splits_zeros (h : Takes read? [0] a) (n : Nat) :
    Splits read? (zeros n) (List.replicate n a) := by
  induction n with
  | zero => exact ⟨[], rfl, .nil⟩
  | succ n ih => exact h.splits.append ih

end ReadAll

namespace Metadata

/-! ## Insertions -/

namespace Heap

/-- The heap after an insertion. One that is rejected leaves the heap as it was. -/
def after (h : Heap) : Except Failure (Nat × Heap) → Heap
  | .ok (_, h') => h'
  | .error _ => h

/-- The heap after insertions one after the other, some of which may be rejected. -/
def insertEach {α : Type} (insert : Heap → α → Except Failure (Nat × Heap)) : Heap → List α → Heap
  | h, [] => h
  | h, x :: xs => insertEach insert (h.after (insert h x)) xs

section Insertions

variable {α : Type} {read? : Bytes → Option (Bytes × Bytes)} {h : Heap} {items : List Bytes}

/-- An insertion adds what it inserts to the walk, and empty entries for its padding. -/
theorem exists_splits_insert (hh : Splits read? h.bytes items) (hpad : Takes read? [0] [])
    {entry content : Bytes} (hentry : Takes read? entry content) :
    ∃ n, Splits read? (h.insert entry).2.bytes (items ++ content :: List.replicate n []) := by
  have hsplits := (hh.append hentry.splits).append
    (splits_zeros hpad (alignUp (h.bytes ++ entry).length 4 - (h.bytes ++ entry).length))
  rw [List.append_assoc items, List.singleton_append] at hsplits
  exact ⟨_, hsplits⟩

/-- A fresh heap is a walk over empty entries. -/
theorem splits_initial (hpad : Takes read? [0] []) :
    Splits read? initial.bytes (List.replicate 4 []) :=
  splits_zeros hpad 4

variable {insert : Heap → α → Except Failure (Nat × Heap)} {entry : α → Except Failure Bytes}
  {content : α → Bytes}

/-- Insertions add the contents of those that are accepted to the walk, up to empty
entries. -/
theorem exists_splits_insertEach (hinsert : ∀ h x, insert h x = (entry x).map h.insert)
    (hpad : Takes read? [0] []) {xs : List α}
    (hentry : ∀ x ∈ xs, ∀ e, entry x = .ok e → Takes read? e (content x))
    (hh : Splits read? h.bytes items) :
    ∃ items', Splits read? (h.insertEach insert xs).bytes items' ∧
      items'.filter (· ≠ []) = items.filter (· ≠ []) ++
        ((xs.filter fun x => (entry x).isOk).map content).filter (· ≠ []) := by
  induction xs generalizing h items with
  | nil => exact ⟨items, hh, by simp⟩
  | cons x xs ih =>
    obtain ⟨hx, hxs⟩ := List.forall_mem_cons.1 hentry
    rw [insertEach, hinsert]
    cases he : entry x with
    | error reason =>
      obtain ⟨items', hsplits, hitems'⟩ := ih hxs hh
      exact ⟨items', hsplits, by simpa [he, Except.isOk, Except.toBool] using hitems'⟩
    | ok e =>
      obtain ⟨n, hinserted⟩ := exists_splits_insert hh hpad (hx e he)
      obtain ⟨items', hsplits, hitems'⟩ := ih hxs hinserted
      refine ⟨items', hsplits, ?_⟩
      rw [hitems']
      by_cases hc : content x = [] <;> simp [he, hc, Except.isOk, Except.toBool]

end Insertions

end Heap

/-! ## The entries -/

/-- Takes a length byte that is less than `0x80`, and as many bytes. -/
def readSized? (bs : Bytes) : Option (Bytes × Bytes) := do
  let (size, bs) ← readNumber? 1 bs
  guard (size < 0x80)
  readBytes? size bs

/-- What the entry of a literal has behind its length byte: the code units, and a byte that
is one if some unit needs handling. -/
def literalContent (s : String) : Bytes :=
  (utf16 s).flatMap word16 ++ [if (utf16 s).any needsHandling then 1 else 0]

/-- A short content behind its length is an entry. -/
theorem takes_readSized? (content : Bytes) (h : content.length ≤ 127) :
    Takes readSized? (UInt8.ofNat content.length :: content) content := by
  refine ⟨List.cons_ne_nil _ _, fun rest => ?_⟩
  have hlt : content.length < 0x80 := Nat.lt_succ_of_le h
  have hread : readNumber? 1 (UInt8.ofNat content.length :: (content ++ rest)) =
      some (content.length, content ++ rest) := by
    apply readNumber?_littleEndian
    omega
  rw [List.cons_append]
  simp [readSized?, hread, hlt, readBytes?_append rfl]

theorem takes_readSized?_zero : Takes readSized? [0] [] := takes_readSized? [] (Nat.zero_le _)

theorem takes_readSized?_userString {s : String} {entry : Bytes}
    (h : userStringEntry s = .ok entry) : Takes readSized? entry (literalContent s) := by
  rw [userStringEntry] at h
  split at h
  · cases h
  · next hle =>
    obtain rfl := Except.ok.inj h
    have hlength : (literalContent s).length = (utf16 s).length * 2 + 1 := by
      rw [literalContent, List.length_append, length_flatMap_word16, List.length_singleton,
        Nat.mul_comm]
    have hmax : maxUserStringUnits = 63 := rfl
    have htakes := takes_readSized? (literalContent s) (by omega)
    rwa [hlength] at htakes

theorem takes_readSized?_blob {value entry : Bytes} (h : blobEntry value = .ok entry) :
    Takes readSized? entry value := by
  rw [blobEntry] at h
  split at h
  · cases h
  · next hle =>
    obtain rfl := Except.ok.inj h
    exact takes_readSized? value (Nat.not_lt.1 hle)

theorem takes_readText? {s : String} (hs : '\x00' ∉ s.toList) :
    Takes readText? (stringEntry s) (utf8 s) := by
  refine ⟨by simp [stringEntry], fun rest => ?_⟩
  rw [stringEntry, List.append_assoc, List.singleton_append]
  exact readText?_append (zero_notMem_utf8 hs) rest

theorem takes_readText?_zero : Takes readText? [0] [] :=
  ⟨List.cons_ne_nil _ _, fun rest => readText?_append (List.not_mem_nil) rest⟩

/-- Where a limit is the only reason to reject a value, the others are accepted. -/
theorem isOk_ite_error {large : Prop} [Decidable large] (failure : Failure) (entry : Bytes) :
    (if large then Except.error failure else Except.ok entry).isOk = decide (¬ large) := by
  by_cases hlarge : large <;> simp [hlarge, Except.isOk, Except.toBool]

theorem isOk_userStringEntry (s : String) :
    (userStringEntry s).isOk = decide ((utf16 s).length ≤ 63) := by
  rw [userStringEntry, isOk_ite_error]
  exact decide_eq_decide.2 Nat.not_lt

theorem isOk_blobEntry (value : Bytes) :
    (blobEntry value).isOk = decide (value.length ≤ 127) := by
  rw [blobEntry, isOk_ite_error]
  exact decide_eq_decide.2 Nat.not_lt

/-- Only the empty text has no bytes. -/
theorem utf8_eq_nil_iff (s : String) : utf8 s = [] ↔ s = "" := by
  rw [utf8_eq_flatMap, List.flatMap_eq_nil_iff, ← String.toList_eq_nil_iff,
    List.eq_nil_iff_forall_not_mem]
  have hne : ∀ c : Char, String.utf8EncodeChar c ≠ [] := by
    intro c h
    have hsize := congrArg List.length h
    rw [String.length_utf8EncodeChar] at hsize
    exact c.utf8Size_pos.ne' hsize
  simp [hne]

/-! ## The walk -/

section Walk

variable {α : Type} {read? : Bytes → Option (Bytes × Bytes)} (entry : α → Except Failure Bytes)
  (content : α → Bytes) {insert : Heap → α → Except Failure (Nat × Heap)}

/-- The walk over a heap that was filled from the start. -/
theorem exists_readAll?_insertEach (xs : List α)
    (hinsert : ∀ h x, insert h x = (entry x).map h.insert) (hpad : Takes read? [0] [])
    (hentry : ∀ x ∈ xs, ∀ e, entry x = .ok e → Takes read? e (content x)) :
    ∃ items, readAll? read? (Heap.initial.insertEach insert xs).bytes = some items ∧
      items.filter (· ≠ []) =
        ((xs.filter fun x => (entry x).isOk).map content).filter (· ≠ []) := by
  obtain ⟨items, hsplits, hitems⟩ :=
    Heap.exists_splits_insertEach hinsert hpad hentry (Heap.splits_initial hpad)
  refine ⟨items, hsplits.readAll?_eq, ?_⟩
  simpa using hitems

end Walk

/-- The walk over literals finds those that are accepted. -/
theorem exists_readAll?_userStrings (texts : List String) :
    ∃ entries, readAll? readSized?
        (Heap.initial.insertEach Heap.insertUserString texts).bytes = some entries ∧
      entries.filter (· ≠ []) =
        (texts.filter fun s => (utf16 s).length ≤ 63).map literalContent := by
  obtain ⟨entries, hread, hentries⟩ := exists_readAll?_insertEach userStringEntry literalContent
    texts (fun _ _ => rfl) takes_readSized?_zero fun _ _ _ => takes_readSized?_userString
  refine ⟨entries, hread, ?_⟩
  rw [hentries, List.filter_eq_self.2, funext isOk_userStringEntry]
  -- no literal is empty: its last byte is always there
  intro bs hbs
  obtain ⟨s, -, rfl⟩ := List.mem_map.1 hbs
  simp [literalContent]

/-- The walk over binary values finds those that are accepted and have bytes. -/
theorem exists_readAll?_blobs (values : List Bytes) :
    ∃ entries, readAll? readSized?
        (Heap.initial.insertEach Heap.insertBlob values).bytes = some entries ∧
      entries.filter (· ≠ []) = values.filter fun value => value.length ≤ 127 ∧ value ≠ [] := by
  obtain ⟨entries, hread, hentries⟩ := exists_readAll?_insertEach blobEntry id values
    (fun _ _ => rfl) takes_readSized?_zero fun _ _ _ => takes_readSized?_blob
  refine ⟨entries, hread, ?_⟩
  rw [hentries, List.map_id, funext isOk_blobEntry, List.filter_filter]
  simp [and_comm]

/-- The walk over names finds those that are not empty. -/
theorem exists_readAll?_names {names : List String} (hnames : ∀ s ∈ names, '\x00' ∉ s.toList) :
    ∃ entries, readAll? readText?
        (Heap.initial.insertEach (fun h s => .ok (h.insertString s)) names).bytes =
          some entries ∧
      entries.filter (· ≠ []) = (names.filter (· ≠ "")).map utf8 := by
  have hentry : ∀ s ∈ names, ∀ e, (Except.ok (stringEntry s) : Except Failure Bytes) = .ok e →
      Takes readText? e (utf8 s) := by
    intro s hs e he
    cases he
    exact takes_readText? (hnames s hs)
  obtain ⟨entries, hread, hentries⟩ := exists_readAll?_insertEach (fun s => .ok (stringEntry s))
    utf8 names (fun _ _ => rfl) takes_readText?_zero hentry
  refine ⟨entries, hread, ?_⟩
  rw [hentries]
  simp [Except.isOk, Except.toBool, List.filter_map, Function.comp_def, utf8_eq_nil_iff]

theorem Heap.insertUserString_of_lt (h : Heap) {s : String} (hlarge : 63 < (utf16 s).length) :
    h.insertUserString s = .error (.heapEntryTooLarge "#US" (utf16 s).length 63) := by
  rw [insertUserString, (userStringEntry_eq_error_iff s _).2 ⟨hlarge, rfl⟩]
  rfl

theorem Heap.insertBlob_of_lt (h : Heap) {value : Bytes} (hlarge : 127 < value.length) :
    h.insertBlob value = .error (.heapEntryTooLarge "#Blob" value.length 127) := by
  rw [insertBlob, (blobEntry_eq_error_iff value _).2 ⟨hlarge, rfl⟩]
  rfl

/-- Literals, binary values and names are inserted into a fresh heap each. Reading one entry
after the other ends at the end of the heap. The entries that are not empty are the literals
of at most 63 code units, and the binary values of at most 127 bytes, in the order of their
insertion; all others are rejected and leave the heap as it was. Names without U+0000 are
found up to their zero bytes. -/
theorem readAll?_insertEach (texts names : List String) (values : List Bytes)
    (hnames : ∀ s ∈ names, '\x00' ∉ s.toList) :
    (∃ entries, readAll? readSized?
        (Heap.initial.insertEach Heap.insertUserString texts).bytes = some entries ∧
      entries.filter (· ≠ []) =
        (texts.filter fun s => (utf16 s).length ≤ 63).map literalContent) ∧
    (∃ entries, readAll? readSized?
        (Heap.initial.insertEach Heap.insertBlob values).bytes = some entries ∧
      entries.filter (· ≠ []) = values.filter fun value => value.length ≤ 127 ∧ value ≠ []) ∧
    (∃ entries, readAll? readText?
        (Heap.initial.insertEach (fun h s => .ok (h.insertString s)) names).bytes =
          some entries ∧
      entries.filter (· ≠ []) = (names.filter (· ≠ "")).map utf8) ∧
    (∀ (h : Heap) (s : String), 63 < (utf16 s).length →
      h.insertUserString s = .error (.heapEntryTooLarge "#US" (utf16 s).length 63) ∧
        h.after (h.insertUserString s) = h) ∧
    ∀ (h : Heap) (value : Bytes), 127 < value.length →
      h.insertBlob value = .error (.heapEntryTooLarge "#Blob" value.length 127) ∧
        h.after (h.insertBlob value) = h := by
  refine ⟨exists_readAll?_userStrings texts, exists_readAll?_blobs values,
    exists_readAll?_names hnames, ?_, ?_⟩
  · intro h s hlarge
    have herror := h.insertUserString_of_lt hlarge
    exact ⟨herror, by rw [herror]; rfl⟩
  · intro h value hlarge
    have herror := h.insertBlob_of_lt hlarge
    exact ⟨herror, by rw [herror]; rfl⟩

/-- Of three literals the second one is too long. The first one is empty, but its last byte
is not. A binary value without bytes is not found, nor is an empty name. -/
theorem readAll?_insertEach_mixed :
    (∃ entries, readAll? readSized? (Heap.initial.insertEach Heap.insertUserString
        ["", String.ofList (List.replicate 64 'x'), "-"]).bytes = some entries ∧
      entries.filter (· ≠ []) = [[0], [0x2d, 0, 1]]) ∧
    (∃ entries, readAll? readSized? (Heap.initial.insertEach Heap.insertBlob
        [[0, 0], [], zeros 128, [7]]).bytes = some entries ∧
      entries.filter (· ≠ []) = [[0, 0], [7]]) ∧
    ∃ entries, readAll? readText? (Heap.initial.insertEach (fun h s => .ok (h.insertString s))
        ["Main", "", "Run"]).bytes = some entries ∧
      entries.filter (· ≠ []) = [utf8 "Main", utf8 "Run"] := by
  have hnames : ∀ s ∈ ["Main", "", "Run"], '\x00' ∉ s.toList := by decide
  obtain ⟨⟨entries, hread, hentries⟩, ⟨entries', hread', hentries'⟩,
    ⟨entries'', hread'', hentries''⟩, -⟩ := readAll?_insertEach
      ["", String.ofList (List.replicate 64 'x'), "-"] ["Main", "", "Run"]
      [[0, 0], [], zeros 128, [7]] hnames
  refine ⟨⟨entries, hread, hentries.trans ?_⟩, ⟨entries', hread', hentries'.trans ?_⟩,
    ⟨entries'', hread'', hentries''.trans ?_⟩⟩
  · decide
  · simp [zeros]
  · decide

end Metadata

end QuillImage
