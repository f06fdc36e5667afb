/-!
# Categories of nodes

The nodes of a program fall into four categories. References are kept apart by
category: a `Ref c` is the identity of a node of the program, and a `Handle c`
names a node that lowering made. `PerCategory F` is a value of `F c` for each
category `c`.
-/

namespace QuillImage.Syntax

/-- The category of a node. -/
inductive Category where
  | type
  | var
  | expr
  | stmt
  deriving DecidableEq, Repr

/-- The identity of a node of a program. Two references with equal indexes are
the same node. -/
structure Ref (c : Category) where
  index : Nat
  deriving DecidableEq, Hashable, Repr

/-- The position of a lowered node among those of its category. There are fewer than `2 ^ 32`
nodes of each category, so that every position is a 32-bit word. -/
structure Handle (c : Category) where
  index : Nat
  deriving DecidableEq, Hashable, Repr

/-- A value for each category. -/
structure PerCategory (F : Category → Type) where
  type : F .type
  var : F .var
  expr : F .expr
  stmt : F .stmt

namespace PerCategory

variable {F : Category → Type}

/-- The same value for each category. -/
def const (f : (c : Category) → F c) : PerCategory F := ⟨f .type, f .var, f .expr, f .stmt⟩

/-- The value of a category. -/
def get (p : PerCategory F) : (c : Category) → F c
  | .type => p.type
  | .var => p.var
  | .expr => p.expr
  | .stmt => p.stmt

/-- Changes the value of a category. -/
def modify : PerCategory F → (c : Category) → (F c → F c) → PerCategory F
  | ⟨t, v, e, s⟩, .type, f => ⟨f t, v, e, s⟩
  | ⟨t, v, e, s⟩, .var, f => ⟨t, f v, e, s⟩
  | ⟨t, v, e, s⟩, .expr, f => ⟨t, v, f e, s⟩
  | ⟨t, v, e, s⟩, .stmt, f => ⟨t, v, e, f s⟩

@[simp]
theorem get_modify_self (p : PerCategory F) (c : Category) (f : F c → F c) :
    (p.modify c f).get c = f (p.get c) := by
  cases c <;> rfl

@[simp]
theorem get_modify_of_ne (p : PerCategory F) {c d : Category} (h : d ≠ c) (f : F c → F c) :
    (p.modify c f).get d = p.get d := by
  cases c <;> cases d <;> first | rfl | exact absurd rfl h

end PerCategory

end QuillImage.Syntax
