/-!
# Exchange values

Programs, rows and lowered nodes are handed over as trees of named values. This
file defines the trees and the reading of their fields. A field that is missing
and a field that is null are the same. A missing list is empty, a missing flag is
off, and a missing number is zero.
-/

namespace QuillImage.Exchange

/-- A tree of named values. -/
inductive Value where
  | null
  | flag (b : Bool)
  | number (n : Int)
  | text (s : String)
  | list (items : List Value)
  | record (fields : List (String × Value))
deriving Inhabited

/-- The result of reading a value, or what was expected in its place. -/
abbrev Read := Except String

namespace Value

/-- A natural number as a value. -/
def nat (n : Nat) : Value := .number n

/-- A list of texts. -/
def texts (items : List String) : Value := .list (items.map .text)

/-- A value that may be missing. -/
def option {α : Type} (f : α → Value) : Option α → Value
  | some a => f a
  | none => .null

/-! ## Reading -/

/-- The value of a field as it was given. -/
def given? : Value → String → Option Value
  | record fields, key => fields.lookup key
  | _, _ => none

/-- The value of a field, unless it is null. -/
def field? (v : Value) (key : String) : Option Value :=
  match v.given? key with
  | some null => none
  | other => other

/-- The value of a field that must be there. -/
def field (v : Value) (key : String) : Read Value :=
  match v.field? key with
  | some x => pure x
  | none => throw ("a field " ++ key)

/-- An integer. -/
def asInt : Value → Read Int
  | number n => pure n
  | _ => throw "a number"

/-- A natural number. -/
def asNat : Value → Read Nat
  | number (.ofNat n) => pure n
  | _ => throw "a natural number"

/-- A text. -/
def asText : Value → Read String
  | text s => pure s
  | _ => throw "a text"

/-- A list. -/
def asList : Value → Read (List Value)
  | list items => pure items
  | _ => throw "a list"

/-- A pair, as a list of two items. -/
def asPair {α β : Type} (f : Value → Read α) (g : Value → Read β) : Value → Read (α × β)
  | list [a, b] => return (← f a, ← g b)
  | _ => throw "a pair"

/-- A field with a natural number. -/
def natOr (v : Value) (key : String) (default : Nat) : Read Nat :=
  match v.field? key with
  | some x => x.asNat
  | none => pure default

/-- A field with a natural number. -/
def getNat (v : Value) (key : String) : Read Nat := v.natOr key 0

/-- A field with a 16-bit number. -/
def getWord (v : Value) (key : String) : Read UInt16 := return UInt16.ofNat (← v.getNat key)

/-- A field with a 32-bit number. -/
def getDword (v : Value) (key : String) : Read UInt32 := return UInt32.ofNat (← v.getNat key)

/-- A field with a text. -/
def textOr (v : Value) (key default : String) : Read String :=
  match v.field? key with
  | some x => x.asText
  | none => pure default

/-- A field with a text. -/
def getText (v : Value) (key : String) : Read String := v.textOr key ""

/-- A field with a flag. -/
def getFlag (v : Value) (key : String) : Read Bool :=
  match v.field? key with
  | some (flag b) => pure b
  | none => pure false
  | _ => throw "a flag"

/-- A field with a list of items of one kind. -/
def getList {α : Type} (v : Value) (key : String) (f : Value → Read α) : Read (List α) :=
  match v.field? key with
  | some x => do (← x.asList).mapM f
  | none => pure []

end Value

/-! ## Names -/

/-- The name of a value in a list of names. -/
def nameIn {α : Type} [BEq α] (names : List (String × α)) (a : α) : String :=
  ((names.find? (·.2 == a)).map (·.1)).getD ""

/-- The value of a name in a list of names. -/
def ofNameIn {α : Type} (names : List (String × α)) (name : String) : Read α :=
  match names.lookup name with
  | some a => pure a
  | none => throw ("a known name instead of " ++ name)

end QuillImage.Exchange
