import Mathlib.Tactic
import QuillImage.Image.Section
import QuillImage.Proofs.Metadata.Heap

/-!
# Alignment

Sizes are rounded up to a multiple of an alignment in word arithmetic: the quotient is
rounded up and multiplied by the alignment. The alignment need not be a power of two, and
the product can leave its word although the value and the alignment fit.
`alignUp?_of_pos` says that only the product counts, so that all there is to know about
the results is what `alignUp` gives (`isLeast_alignUp`) and whether it fits.

Main statement: there is a result exactly if the alignment is not zero and the next
multiple fits, the result is that multiple, and what is appended to a run of bytes or to
a heap to reach it is fewer zero bytes than the alignment (`exact_alignment`).
-/

namespace QuillImage

open Image Metadata

/-! ## Words -/

theorem toWord?_eq_some_iff {bits n m : Nat} : toWord? bits n = some m ↔ n < 2 ^ bits ∧ n = m := by
  rw [toWord?, Option.ite_none_right_eq_some, Option.some.injEq, Nat.pow_eq]

theorem toWord?_eq_none_iff {bits n : Nat} : toWord? bits n = none ↔ 2 ^ bits ≤ n := by
  rw [toWord?, ite_eq_right_iff, Nat.pow_eq, ← Nat.not_lt]
  exact forall_congr' fun _ => iff_of_false (Option.some_ne_none n) not_false

/-- A product that fits a word has a first factor that does. -/
theorem toWord?_bind_mul {bits n k : Nat} (hk : 0 < k) :
    ((toWord? bits n).bind fun m => toWord? bits (m * k)) = toWord? bits (n * k) := by
  cases h : toWord? bits n with
  | none =>
    have hle : 2 ^ bits ≤ n := toWord?_eq_none_iff.1 h
    exact (toWord?_eq_none_iff.2 (hle.trans (Nat.le_mul_of_pos_right n hk))).symm
  | some m =>
    obtain ⟨-, rfl⟩ := toWord?_eq_some_iff.1 h
    rfl

/-! ## Rounding -/

/-- Rounding up gives the least multiple that is large enough. -/
theorem isLeast_alignUp {alignment : Nat} (h : 0 < alignment) (value : Nat) :
    IsLeast { n | alignment ∣ n ∧ value ≤ n } (alignUp value alignment) := by
  refine ⟨⟨Dvd.intro_left _ rfl, le_alignUp h value⟩, ?_⟩
  rintro _ ⟨⟨k, rfl⟩, hle⟩
  rw [alignUp, Nat.mul_comm alignment k]
  apply Nat.mul_le_mul_right
  rw [← Nat.lt_succ_iff, Nat.div_lt_iff_lt_mul h, Nat.succ_mul, Nat.mul_comm k]
  omega

/-- Rounding up in words gives what it gives without limits, if that fits. A quotient that
leaves its word makes no difference, since the product leaves it too. -/
theorem alignUp?_of_pos {bits alignment : Nat} (h : 0 < alignment) (value : Nat) :
    alignUp? bits value alignment = toWord? bits (alignUp value alignment) := by
  rw [alignUp, add_sub_one_div h, alignUp?, divUp?, if_neg h.ne']
  split
  · rfl
  · exact toWord?_bind_mul h

theorem alignUp?_zero (bits value : Nat) : alignUp? bits value 0 = none := rfl

/-! ## Results -/

/-- A number is the next multiple of an alignment, from a value on. -/
def IsNextMultiple (alignment value n : Nat) : Prop :=
  IsLeast { m | alignment ∣ m ∧ value ≤ m } n

/-- A multiple is its own next multiple. -/
theorem IsNextMultiple.self {alignment value n : Nat} (h : IsNextMultiple alignment value n) :
    IsNextMultiple alignment n n :=
  ⟨⟨h.1.1, le_rfl⟩, fun _ hm => hm.2⟩

theorem alignUp?_eq_some_iff {bits value alignment n : Nat} :
    alignUp? bits value alignment = some n ↔
      alignment ≠ 0 ∧ IsNextMultiple alignment value n ∧ n < 2 ^ bits := by
  rcases Nat.eq_zero_or_pos alignment with rfl | hpos
  · simp [alignUp?_zero]
  · have hleast := isLeast_alignUp hpos value
    rw [alignUp?_of_pos hpos, toWord?_eq_some_iff]
    constructor
    · rintro ⟨hlt, rfl⟩
      exact ⟨hpos.ne', hleast, hlt⟩
    · rintro ⟨-, hn, hlt⟩
      obtain rfl := hleast.unique hn
      exact ⟨hlt, rfl⟩

theorem alignUp?_eq_none_iff {bits value alignment : Nat} :
    alignUp? bits value alignment = none ↔
      alignment = 0 ∨ ∃ n, IsNextMultiple alignment value n ∧ 2 ^ bits ≤ n := by
  rcases Nat.eq_zero_or_pos alignment with rfl | hpos
  · simp [alignUp?_zero]
  · have hleast := isLeast_alignUp hpos value
    rw [alignUp?_of_pos hpos, toWord?_eq_none_iff]
    constructor
    · intro hle
      exact .inr ⟨_, hleast, hle⟩
    · rintro (h0 | ⟨n, hn, hle⟩)
      · exact absurd h0 hpos.ne'
      · rwa [hleast.unique hn]

/-- A smaller value has a result if a larger one has, and not a larger one. -/
theorem exists_alignUp?_le {bits value value' alignment n' : Nat} (hle : value ≤ value')
    (h : alignUp? bits value' alignment = some n') :
    ∃ n ≤ n', alignUp? bits value alignment = some n := by
  obtain ⟨hne, hn', hlt⟩ := alignUp?_eq_some_iff.1 h
  have hleast := isLeast_alignUp (Nat.pos_of_ne_zero hne) value
  have hn : alignUp value alignment ≤ n' := hn'.mono hleast fun m hm => ⟨hm.1, hle.trans hm.2⟩
  exact ⟨_, hn, alignUp?_eq_some_iff.2 ⟨hne, hleast, hn.trans_lt hlt⟩⟩

/-- Rounding up in words of a width is exact up to the limits of these words. -/
structure RoundsUp (bits : Nat) (round? : (value alignment : Nat) → Option Nat) : Prop where
  /-- There is no result exactly for the alignment zero, and for a next multiple that does not
  fit. -/
  none_iff : ∀ value alignment, round? value alignment = none ↔
    alignment = 0 ∨ ∃ n, IsNextMultiple alignment value n ∧ 2 ^ bits ≤ n
  isNextMultiple : ∀ value alignment n, round? value alignment = some n →
    IsNextMultiple alignment value n
  idempotent : ∀ value alignment n, round? value alignment = some n →
    round? n alignment = some n
  monotone : ∀ value value' alignment n', value ≤ value' → round? value' alignment = some n' →
    ∃ n ≤ n', round? value alignment = some n

theorem roundsUp_alignUp? (bits : Nat) : RoundsUp bits (alignUp? bits) where
  none_iff _ _ := alignUp?_eq_none_iff
  isNextMultiple _ _ _ h := (alignUp?_eq_some_iff.1 h).2.1
  idempotent _ _ _ h := by
    obtain ⟨hne, hn, hlt⟩ := alignUp?_eq_some_iff.1 h
    exact alignUp?_eq_some_iff.2 ⟨hne, hn.self, hlt⟩
  monotone _ _ _ _ hle h := exists_alignUp?_le hle h

/-- A narrow word gives the results of a wide one that fit it. -/
theorem alignUp?_eq_some_iff_of_le {narrow wide : Nat} (hle : narrow ≤ wide)
    {value alignment n : Nat} :
    alignUp? narrow value alignment = some n ↔
      alignUp? wide value alignment = some n ∧ n < 2 ^ narrow := by
  have hpow : 2 ^ narrow ≤ 2 ^ wide := Nat.pow_le_pow_right (by norm_num) hle
  rw [alignUp?_eq_some_iff, alignUp?_eq_some_iff]
  constructor
  · rintro ⟨hne, hn, hlt⟩
    exact ⟨⟨hne, hn, hlt.trans_le hpow⟩, hlt⟩
  · rintro ⟨⟨hne, hn, -⟩, hlt⟩
    exact ⟨hne, hn, hlt⟩

/-- The next multiple of a 32-bit word fits 64 bits. -/
theorem alignUp?_words_eq_none_iff (value alignment : UInt32) :
    alignUp? 64 value.toNat alignment.toNat = none ↔ alignment = 0 := by
  rw [← UInt32.toNat_inj, UInt32.toNat_zero]
  rcases Nat.eq_zero_or_pos alignment.toNat with h0 | hpos
  · rw [h0, alignUp?_zero]
    exact iff_of_true rfl rfl
  · have hlt := alignUp_lt_add hpos value.toNat
    have hvalue := value.toNat_lt
    have halignment := alignment.toNat_lt
    rw [alignUp?_of_pos hpos, toWord?_eq_none_iff]
    omega

/-! ## Padding -/

/-- The second run of bytes is the first one with fewer zeros than the alignment, up to the
next multiple. -/
def FillsUp (alignment : Nat) (bs bs' : Bytes) : Prop :=
  IsNextMultiple alignment bs.length bs'.length ∧ ∃ n < alignment, bs' = bs ++ zeros n

theorem fillsUp_padded {alignment : Nat} (h : 0 < alignment) (bs : Bytes) :
    FillsUp alignment bs (bs.padded alignment) := by
  refine ⟨?_, exists_padded_eq_append_zeros h bs⟩
  rw [length_padded h]
  exact isLeast_alignUp h bs.length

namespace Bytes

/-- Nothing is cut off up to a size that is large enough. -/
theorem resize_of_le {bs : Bytes} {size : Nat} (h : bs.length ≤ size) :
    bs.resize size = bs.padTo size := by
  rw [resize, padTo, List.take_of_length_le h]

theorem align?_eq_some_iff {alignment : Nat} {bs bs' : Bytes} :
    bs.align? alignment = some bs' ↔
      alignment ≠ 0 ∧ alignUp bs.length alignment < 2 ^ 64 ∧ bs' = bs.padded alignment := by
  rcases Nat.eq_zero_or_pos alignment with rfl | hpos
  · simp [align?, alignUp?_zero]
  · have hresize : bs.resize (alignUp bs.length alignment) = bs.padded alignment :=
      resize_of_le (le_alignUp hpos bs.length)
    rw [align?, alignUp?_of_pos hpos, Option.map_eq_some_iff]
    constructor
    · rintro ⟨n, hn, rfl⟩
      obtain ⟨hlt, rfl⟩ := toWord?_eq_some_iff.1 hn
      exact ⟨hpos.ne', hlt, hresize⟩
    · rintro ⟨-, hlt, rfl⟩
      exact ⟨_, toWord?_eq_some_iff.2 ⟨hlt, rfl⟩, hresize⟩

theorem align?_eq_none_iff {alignment : Nat} {bs : Bytes} :
    bs.align? alignment = none ↔
      alignment = 0 ∨ ∃ n, IsNextMultiple alignment bs.length n ∧ 2 ^ 64 ≤ n := by
  rw [align?, Option.map_eq_none_iff, alignUp?_eq_none_iff]

theorem fillsUp_of_align? {alignment : Nat} {bs bs' : Bytes} (h : bs.align? alignment = some bs') :
    FillsUp alignment bs bs' := by
  obtain ⟨hne, -, rfl⟩ := align?_eq_some_iff.1 h
  exact fillsUp_padded (Nat.pos_of_ne_zero hne) bs

end Bytes

/-- A heap is padded as a run of bytes. This has a result as long as four bytes are left below
the limit of a word. -/
theorem Metadata.Heap.align?_eq_insert_iff (h : Heap) (entry : Bytes) :
    (h.bytes ++ entry).align? 4 = some (h.insert entry).2.bytes ↔
      h.size + entry.length ≤ 2 ^ 64 - 4 := by
  have hsize : (h.bytes ++ entry).length = h.size + entry.length := List.length_append
  rw [Bytes.align?_eq_some_iff, hsize, alignUp]
  constructor
  · rintro ⟨-, hlt, -⟩
    omega
  · intro hle
    exact ⟨by norm_num, by omega, rfl⟩

/-- Rounding up is exact in words of every width, and 32-bit words give the results of 64-bit
words that fit them. Alignment of a run of bytes has a result exactly if the next multiple of
its length fits a word; it appends fewer zero bytes than the alignment and changes nothing
before them, and so does the alignment of a section. An insertion into a heap is such an
alignment, of the heap with the entry at its end, and a series of insertions appends each entry
with fewer than four zero bytes. -/
theorem exact_alignment :
    (∀ bits, RoundsUp bits (alignUp? bits)) ∧
    (∀ value alignment n, alignUp? 32 value alignment = some n ↔
      alignUp? 64 value alignment = some n ∧ n < 2 ^ 32) ∧
    (∀ value alignment : UInt32,
      alignUp? 64 value.toNat alignment.toNat = none ↔ alignment = 0) ∧
    (∀ alignment (bs : Bytes), bs.align? alignment = none ↔
      alignment = 0 ∨ ∃ n, IsNextMultiple alignment bs.length n ∧ 2 ^ 64 ≤ n) ∧
    (∀ alignment (bs bs' : Bytes), bs.align? alignment = some bs' → FillsUp alignment bs bs') ∧
    (∀ (s : Section) alignment, alignment ≠ 0 →
      FillsUp alignment s.data (s.align alignment).data) ∧
    (∀ (h : Heap) entry, FillsUp 4 (h.bytes ++ entry) (h.insert entry).2.bytes) ∧
    (∀ (h : Heap) entry, (h.bytes ++ entry).align? 4 = some (h.insert entry).2.bytes ↔
      h.size + entry.length ≤ 2 ^ 64 - 4) ∧
    (∀ (h : Heap) entries, ∃ pieces,
      List.Forall₂ (fun entry piece => ∃ n < 4, piece = entry ++ zeros n) entries pieces ∧
      (h.insertAll entries).bytes = h.bytes ++ pieces.flatten) := by
  refine ⟨roundsUp_alignUp?, ?_, alignUp?_words_eq_none_iff, ?_, ?_, ?_, ?_,
    Heap.align?_eq_insert_iff, Heap.exists_bytes_insertAll⟩
  · intro value alignment n
    exact alignUp?_eq_some_iff_of_le (by norm_num)
  · intro alignment bs
    exact Bytes.align?_eq_none_iff
  · intro alignment bs bs'
    exact Bytes.fillsUp_of_align?
  · intro s alignment hne
    exact fillsUp_padded (Nat.pos_of_ne_zero hne) s.data
  · intro h entry
    exact fillsUp_padded (by norm_num) (h.bytes ++ entry)

/-- The largest multiple of three in 32 bits is reached from the value before it. The quotient 2
and the alignment `0xc0000000` fit 32 bits, and their product does not. -/
theorem exact_alignment_at_limits :
    alignUp? 32 0xfffffffe 3 = some 0xffffffff ∧
      IsNextMultiple 3 0xfffffffe 0xffffffff ∧
      alignUp? 32 0xffffffff 3 = some 0xffffffff ∧
      (∃ n ≤ 0xffffffff, alignUp? 32 7 3 = some n) ∧
      alignUp? 64 0xc0000001 0xc0000000 = some 0x180000000 ∧
      alignUp? 32 0xc0000001 0xc0000000 = none ∧
      FillsUp 3 [7] [7, 0, 0] ∧
      FillsUp 3 [7] ((⟨0x2000, [7]⟩ : Section).align 3).data := by
  obtain ⟨hrounds, -, -, -, hfills, hsection, -⟩ := exact_alignment
  have hthree : alignUp? 32 0xfffffffe 3 = some 0xffffffff := rfl
  have hwide : alignUp? 64 0xc0000001 0xc0000000 = some 0x180000000 := rfl
  have hproduct : IsNextMultiple 0xc0000000 0xc0000001 0x180000000 :=
    (hrounds 64).isNextMultiple _ _ _ hwide
  refine ⟨hthree, (hrounds 32).isNextMultiple _ _ _ hthree, (hrounds 32).idempotent _ _ _ hthree,
    (hrounds 32).monotone 7 _ _ _ (by norm_num) hthree, hwide, ?_, hfills 3 [7] [7, 0, 0] rfl,
    hsection ⟨0x2000, [7]⟩ 3 (by norm_num)⟩
  exact ((hrounds 32).none_iff _ _).2 (.inr ⟨_, hproduct, by norm_num⟩)

end QuillImage
