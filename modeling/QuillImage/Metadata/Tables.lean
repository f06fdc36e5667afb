import QuillImage.Metadata.Row

/-!
# The rows of all tables

`RowStore ts` holds the rows of the tables `ts` in insertion order, and `Tables`
those of every table. Rows are appended at the end and named by their position,
counted from one. `get_modify_self` and `get_modify_of_ne` say what a change of
one table does to the rows of each.
-/

namespace QuillImage.Metadata

/-- The rows of each table of a list, in insertion order. -/
inductive RowStore : List Table → Type where
  | nil : RowStore []
  | cons {t : Table} {ts : List Table} (rows : Array (Row t)) (rest : RowStore ts) :
      RowStore (t :: ts)

namespace RowStore

/-- No rows in any table. -/
def empty : (ts : List Table) → RowStore ts
  | [] => .nil
  | _ :: ts => .cons #[] (empty ts)

/-- The rows of a table. -/
def get {ts : List Table} (s : RowStore ts) (t : Table) : Array (Row t) :=
  match s with
  | .nil => #[]
  | .cons (t := t') rows rest => if h : t' = t then h ▸ rows else rest.get t

/-- Changes the rows of a table. -/
def modify {ts : List Table} (s : RowStore ts) (t : Table)
    (f : Array (Row t) → Array (Row t)) : RowStore ts :=
  match s with
  | .nil => .nil
  | .cons (t := t') rows rest =>
    if h : t' = t then .cons (h ▸ f (h ▸ rows)) rest else .cons rows (rest.modify t f)

theorem get_modify_self {ts : List Table} (s : RowStore ts) {t : Table} (ht : t ∈ ts)
    (f : Array (Row t) → Array (Row t)) : (s.modify t f).get t = f (s.get t) := by
  induction s with
  | nil => simp at ht
  | @cons t' ts rows rest ih =>
    by_cases h : t' = t
    · subst h
      simp [modify, get]
    · have : t ∈ ts := by
        cases ht with
        | head => exact absurd rfl h
        | tail _ ht => exact ht
      simp [modify, get, h, ih this]

theorem get_modify_of_ne {ts : List Table} (s : RowStore ts) {t u : Table} (h : u ≠ t)
    (f : Array (Row t) → Array (Row t)) : (s.modify t f).get u = s.get u := by
  induction s with
  | nil => rfl
  | @cons t' ts rows rest ih =>
    by_cases ht : t' = t
    · subst ht
      simp [modify, get, Ne.symm h]
    · by_cases hu : t' = u
      · subst hu
        simp [modify, get, ht]
      · simp [modify, get, ht, hu, ih]

end RowStore

/-- The rows of every table. -/
abbrev Tables := RowStore Table.all

namespace Tables

/-- No rows in any table. -/
def empty : Tables := RowStore.empty Table.all

/-- The number of rows of a table. -/
def rowCount (ts : Tables) (t : Table) : Nat := (ts.get t).size

/-- Appends a row and gives back its position. -/
def push (ts : Tables) {t : Table} (row : Row t) : Nat × Tables :=
  let ts : Tables := ts.modify t (·.push row)
  (ts.rowCount t, ts)

/-- The row at a position. No row stands at position zero. -/
def row? (ts : Tables) (t : Table) (index : Nat) : Option (Row t) :=
  if index = 0 then none else (ts.get t)[index - 1]?

/-- Replaces the row at a position, if there is one. -/
def setRow? (ts : Tables) {t : Table} (index : Nat) (row : Row t) : Option Tables :=
  (ts.row? t index).map fun _ => ts.modify t (·.setIfInBounds (index - 1) row)

/-- The tables that have rows. -/
def nonempty (ts : Tables) : List Table := Table.all.filter fun t => ts.rowCount t > 0

/-- The mask of the tables that have rows. -/
def validMask (ts : Tables) : Nat := Table.mask ts.nonempty

end Tables

end QuillImage.Metadata
