import Mathlib.Data.Set.Function
import Mathlib.Tactic
import QuillImage.Metadata.CodedIndex

/-!
# Coded indexes and their values

The tags of a kind fit its tag bits, so that the row and the tag of a coded index
do not overlap in its value (`toNat_encode`). A value whose row was not cut
leads back to the index (`decode?_encode`), and it never is zero
(`encode_ne_zero`), which is the value of a column without an index.

The targets of a kind are the tables that have a tag (`mem_targets_iff`), each of
them one (`CodedKind.idxOf_of_getElem?`), so that a value which is decoded is the
value of what it was decoded to (`encode_of_decode?`). `round_trips` puts the laws of
the two directions together.
-/

namespace QuillImage.Metadata

/-- Each kind has room for a tag of each of its candidates. -/
theorem CodedKind.length_candidates_le (k : CodedKind) : k.candidates.length ≤ 2 ^ k.tagBits := by
  cases k <;> decide

/-- Tags are shorter than a 16-bit word. -/
theorem CodedKind.tagBits_le (k : CodedKind) : k.tagBits ≤ 5 := by
  cases k <;> decide

/-- A tag and the bits above it fill a 32-bit word. -/
theorem CodedKind.two_pow_mul_two_pow (k : CodedKind) :
    2 ^ (32 - k.tagBits) * 2 ^ k.tagBits = 2 ^ 32 := by
  rw [← pow_add, Nat.sub_add_cancel (k.tagBits_le.trans (by norm_num))]

/-- An index of a kind can be made for exactly the tables that have a tag. -/
theorem CodedKind.mem_targets_iff (k : CodedKind) (table : Table) :
    table ∈ k.targets ↔ some table ∈ k.candidates := by
  have hall : ∀ c ∈ k.candidates, ∀ t ∈ c.toList, t ∈ k.targets := by cases k <;> decide
  constructor
  · exact mem_candidates_of_mem_targets
  · intro h
    apply hall _ h
    simp

/-- A table has one tag at most: the first one that selects it is the only one. -/
theorem CodedKind.idxOf_of_getElem? {k : CodedKind} {tag : Nat} {table : Table}
    (h : k.candidates[tag]? = some (some table)) : k.candidates.idxOf (some table) = tag := by
  have hall : ∀ c ∈ k.candidates.zipIdx, c.1 = none ∨ k.candidates.idxOf c.1 = c.2 := by
    cases k <;> decide
  have hmem : (some table, tag) ∈ k.candidates.zipIdx := by
    rw [List.mem_zipIdx_iff_getElem?]
    exact h
  rcases hall _ hmem with hnone | htag
  · cases hnone
  · exact htag

/-- What a value names: its low bits are the tag of the table, and the row stands above
them. -/
theorem CodedKind.decode?_eq_some_iff {k : CodedKind} {value row : UInt32} {table : Table} :
    k.decode? value = some (table, row) ↔
      k.candidates[value.toNat % 2 ^ k.tagBits]? = some (some table) ∧
        row.toNat = value.toNat / 2 ^ k.tagBits := by
  have hlt : value.toNat / 2 ^ k.tagBits < 2 ^ 32 :=
    lt_of_le_of_lt (Nat.div_le_self _ _) value.toNat_lt
  have hrow : UInt32.ofNat (value.toNat / 2 ^ k.tagBits) = row ↔
      row.toNat = value.toNat / 2 ^ k.tagBits := by
    rw [← UInt32.toNat_inj, UInt32.toNat_ofNat_of_lt' hlt, eq_comm]
  rw [decode?, Nat.pow_eq]
  split
  · next hcandidate => simp [hcandidate, hrow]
  · next hnone =>
    constructor
    · intro h
      cases h
    · rintro ⟨hcandidate, -⟩
      exact absurd hcandidate (hnone table)

namespace CodedIndex

variable {k : CodedKind}

/-- The tag of an index is one of the kind's tags. -/
theorem tag_lt_length (x : CodedIndex k) : x.tag < k.candidates.length :=
  List.idxOf_lt_length_of_mem x.isCandidate

/-- The tag of an index fits the kind's tag bits. -/
theorem tag_lt (x : CodedIndex k) : x.tag < 2 ^ k.tagBits :=
  lt_of_lt_of_le x.tag_lt_length k.length_candidates_le

/-- The tag of an index selects its table. -/
theorem candidates_tag (x : CodedIndex k) : k.candidates[x.tag]? = some (some x.table) := by
  rw [List.getElem?_eq_getElem x.tag_lt_length]
  exact congrArg some (List.getElem_idxOf x.tag_lt_length)

/-- Row and tag together stay below the limit of the row above the tag. -/
theorem row_mul_add_tag_lt (x : CodedIndex k) {n : Nat} (h : x.row.toNat < n) :
    x.row.toNat * 2 ^ k.tagBits + x.tag < n * 2 ^ k.tagBits := by
  have htag := x.tag_lt
  calc x.row.toNat * 2 ^ k.tagBits + x.tag
      < (x.row.toNat + 1) * 2 ^ k.tagBits := by rw [Nat.succ_mul]; omega
    _ ≤ n * 2 ^ k.tagBits := Nat.mul_le_mul_right _ h

/-- The value of an index whose row leaves room for the tag in a 32-bit word. -/
theorem toNat_encode (x : CodedIndex k) (h : x.row.toNat < 2 ^ (32 - k.tagBits)) :
    x.encode.toNat = x.row.toNat * 2 ^ k.tagBits + x.tag := by
  have hlt := x.row_mul_add_tag_lt h
  rw [k.two_pow_mul_two_pow] at hlt
  exact UInt32.toNat_ofNat_of_lt' hlt

/-- An index of an existing row never has the value zero. -/
theorem encode_ne_zero (x : CodedIndex k) (h : x.row.toNat < 2 ^ (32 - k.tagBits))
    (hrow : 0 < x.row.toNat) : x.encode.toNat ≠ 0 := by
  have hpos : 0 < x.row.toNat * 2 ^ k.tagBits := by positivity
  rw [x.toNat_encode h]
  omega

/-- The value of an index leads back to its table and row. -/
theorem kind_decode?_encode (x : CodedIndex k) (h : x.row.toNat < 2 ^ (32 - k.tagBits)) :
    k.decode? x.encode = some (x.table, x.row) := by
  have hpos : 0 < 2 ^ k.tagBits := by positivity
  have hmod : x.encode.toNat % 2 ^ k.tagBits = x.tag := by
    rw [x.toNat_encode h, Nat.mul_add_mod_self_right, Nat.mod_eq_of_lt x.tag_lt]
  have hdiv : x.encode.toNat / 2 ^ k.tagBits = x.row.toNat := by
    rw [x.toNat_encode h, Nat.add_comm, Nat.add_mul_div_right _ _ hpos,
      Nat.div_eq_of_lt x.tag_lt, Nat.zero_add]
  simp only [CodedKind.decode?, Nat.pow_eq, hmod, hdiv, x.candidates_tag, UInt32.ofNat_toNat]

/-- The value of an index leads back to the index. -/
theorem decode?_encode (x : CodedIndex k) (h : x.row.toNat < 2 ^ (32 - k.tagBits)) :
    decode? k x.encode = some x := by
  rw [decode?, x.kind_decode?_encode h]
  exact dif_pos ((k.mem_targets_iff x.table).2 x.isCandidate)

/-! ## Both directions -/

/-- An index is made of a table and a row exactly if these are its own. -/
theorem ofTarget?_eq_some_iff {table : Table} {row : UInt32} {x : CodedIndex k} :
    ofTarget? k table row = some x ↔ x.table = table ∧ x.row = row := by
  constructor
  · intro h
    rw [ofTarget?] at h
    split at h
    · cases h
      exact ⟨rfl, rfl⟩
    · cases h
  · rintro ⟨rfl, rfl⟩
    exact dif_pos ((k.mem_targets_iff x.table).2 x.isCandidate)

/-- An index can be made for the rows of a table exactly if the table has a tag. -/
theorem exists_ofTarget?_iff (table : Table) (row : UInt32) :
    (∃ x, ofTarget? k table row = some x) ↔ some table ∈ k.candidates := by
  constructor
  · rintro ⟨x, hx⟩
    obtain ⟨rfl, -⟩ := ofTarget?_eq_some_iff.1 hx
    exact x.isCandidate
  · intro h
    exact ⟨⟨table, row, h⟩, ofTarget?_eq_some_iff.2 ⟨rfl, rfl⟩⟩

/-- A value that is decoded is the value of the index that it is decoded to. -/
theorem encode_of_decode? {value : UInt32} {x : CodedIndex k} (h : decode? k value = some x) :
    x.encode = value := by
  obtain ⟨⟨table, row⟩, hdecode, htarget⟩ := Option.bind_eq_some_iff.1 h
  obtain ⟨rfl, rfl⟩ := ofTarget?_eq_some_iff.1 htarget
  obtain ⟨hcandidate, hrow⟩ := CodedKind.decode?_eq_some_iff.1 hdecode
  have htag : x.tag = value.toNat % 2 ^ k.tagBits := CodedKind.idxOf_of_getElem? hcandidate
  rw [encode, htag, hrow, Nat.pow_eq, Nat.div_add_mod', UInt32.ofNat_toNat]

/-- An index is read back from its value exactly if its row leaves room for the tag. -/
theorem decode?_encode_iff (x : CodedIndex k) :
    decode? k x.encode = some x ↔ x.row.toNat < 2 ^ (32 - k.tagBits) := by
  constructor
  · intro h
    obtain ⟨⟨table, row⟩, hdecode, htarget⟩ := Option.bind_eq_some_iff.1 h
    obtain ⟨rfl, rfl⟩ := ofTarget?_eq_some_iff.1 htarget
    obtain ⟨-, hrow⟩ := CodedKind.decode?_eq_some_iff.1 hdecode
    -- the row that is read is what a word has above the tag
    rw [hrow]
    apply Nat.div_lt_of_lt_mul
    rw [Nat.mul_comm, k.two_pow_mul_two_pow]
    exact x.encode.toNat_lt
  · exact x.decode?_encode

/-- The index of a value names the table and the row of the value, and there is an index
whenever there are these. -/
theorem map_decode? (value : UInt32) :
    (decode? k value).map (fun x => (x.table, x.row)) = k.decode? value := by
  cases hdecode : k.decode? value with
  | none => simp [decode?, hdecode]
  | some target =>
    obtain ⟨table, row⟩ := target
    obtain ⟨hcandidate, -⟩ := CodedKind.decode?_eq_some_iff.1 hdecode
    obtain ⟨x, hx⟩ := (exists_ofTarget?_iff table row).2 (List.mem_of_getElem? hcandidate)
    obtain ⟨rfl, rfl⟩ := ofTarget?_eq_some_iff.1 hx
    simp [decode?, hdecode, hx]

/-- Indexes whose rows leave room for the tag have different values. -/
theorem injOn_encode :
    Set.InjOn encode {x : CodedIndex k | x.row.toNat < 2 ^ (32 - k.tagBits)} := by
  intro x hx y hy heq
  have hread := x.decode?_encode hx
  rw [heq, y.decode?_encode hy] at hread
  exact (Option.some.inj hread).symm

/-- Indexes are made for exactly the tables that have a tag, and keep the table and the
row that they are made of. An index is read back from its value exactly if its row leaves
room for the tag. A value names a table and a row exactly if it is the value of an index,
and the index is the one of that table and that row. Indexes with room for the tag have
different values. -/
theorem round_trips (k : CodedKind) :
    (∀ table row, (∃ x, ofTarget? k table row = some x) ↔ some table ∈ k.candidates) ∧
    (∀ table row (x : CodedIndex k),
      ofTarget? k table row = some x ↔ (x.table, x.row) = (table, row)) ∧
    (∀ x : CodedIndex k, decode? k x.encode = some x ↔ x.row.toNat < 2 ^ (32 - k.tagBits)) ∧
    (∀ value, (decode? k value).map (fun x => (x.table, x.row)) = k.decode? value) ∧
    (∀ value (x : CodedIndex k), decode? k value = some x → x.encode = value) ∧
    Set.InjOn encode {x : CodedIndex k | x.row.toNat < 2 ^ (32 - k.tagBits)} := by
  refine ⟨exists_ofTarget?_iff, ?_, decode?_encode_iff, map_decode?, ?_, injOn_encode⟩
  · intro table row x
    rw [ofTarget?_eq_some_iff, Prod.mk.injEq]
  · intro value x
    exact encode_of_decode?

theorem memberRef_isConstructor :
    some Table.memberRef ∈ CodedKind.customAttributeType.candidates := by
  decide

/-- A kind with three bits for its tag, of which the tag 3 selects the member references.
The fifth of them has the value 43. The row that is too large by `2 ^ 29` has the same
value, and is not read back from it. -/
theorem round_trips_customAttributeType :
    decode? .customAttributeType 43 = some ⟨.memberRef, 5, memberRef_isConstructor⟩ ∧
      CodedKind.customAttributeType.decode? 43 = some (.memberRef, 5) ∧
      (⟨.memberRef, 5, memberRef_isConstructor⟩ : CodedIndex _).encode = 43 ∧
      (⟨.memberRef, 0x20000005, memberRef_isConstructor⟩ : CodedIndex _).encode = 43 ∧
      decode? .customAttributeType 43 ≠
        some ⟨.memberRef, 0x20000005, memberRef_isConstructor⟩ := by
  obtain ⟨-, -, hread, hnames, hvalue, -⟩ := round_trips .customAttributeType
  have hlarge : (⟨.memberRef, 0x20000005, memberRef_isConstructor⟩ : CodedIndex _).encode = 43 := by
    decide
  have h43 : decode? .customAttributeType 43 = some ⟨.memberRef, 5, memberRef_isConstructor⟩ :=
    (hread ⟨.memberRef, 5, memberRef_isConstructor⟩).2 (by decide)
  refine ⟨h43, ?_, hvalue _ _ h43, hlarge, ?_⟩
  · rw [← hnames, h43]
    rfl
  · rw [← hlarge]
    exact mt (hread _).1 (by decide)

end CodedIndex

end QuillImage.Metadata
