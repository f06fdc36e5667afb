/-!
# Values of configuration documents

The values of a TOML document, and the tables that keys and headers build. A table
remembers how it came to be, because that decides whether it may be extended:

* a header `[a]` makes an explicit table, and implicit ones on the way to it,
* a dotted key makes dotted tables on the way to its value,
* a value between braces is an inline table, with dotted tables of its own.

A table that is explicit, dotted or inline is not opened again by a header, and a
dotted key goes only through tables that no header made explicit.
-/

namespace QuillImage.Toml

/-- How a table came to be. -/
inductive TableKind where
  | explicit
  | implicit
  | dotted
  | inline
  | inlineDotted
  deriving DecidableEq, Repr

/-- A value. Numbers with a fraction and dates keep their text. -/
inductive Value where
  | string (s : String)
  | integer (n : Int)
  | float (text : String)
  | boolean (b : Bool)
  | dateTime (text : String)
  | array (items : List Value)
  | table (kind : TableKind) (fields : List (String × Value))
  /-- The tables of a header `[[a]]`. -/
  | tables (items : List (List (String × Value)))

/-- The fields of a table, in the order of their keys. -/
abbrev Fields := List (String × Value)

namespace Fields

/-- Replaces the value of a key. -/
def set (key : String) (v : Value) : Fields → Fields
  | [] => [(key, v)]
  | (k, old) :: rest => if k = key then (k, v) :: rest else (k, old) :: set key v rest

/-- Adds a key that must be new. -/
def add? (key : String) (v : Value) (fields : Fields) : Option Fields :=
  match fields.lookup key with
  | some _ => none
  | none => some (fields ++ [(key, v)])

end Fields

/-- A way through tables: which tables it makes, and which it may go through. -/
structure Passage where
  made : TableKind
  mayEnter : TableKind → Bool

namespace Passage

/-- The way of a header. -/
def header : Passage := ⟨.implicit, fun k => k != .inline && k != .inlineDotted⟩

/-- The way of a dotted key. -/
def dottedKey : Passage := ⟨.dotted, fun k => k == .implicit || k == .dotted⟩

/-- The way of a dotted key in an inline table. -/
def inlineKey : Passage := ⟨.inlineDotted, (· == .inlineDotted)⟩

/-- Changes the table at the end of a way. The change is told how that table came to
be. An array of tables stands for its last table. -/
def change (p : Passage) (f : TableKind → Fields → Option Fields) :
    List String → TableKind → Fields → Option Fields
  | [], kind, fields => f kind fields
  | key :: path, _, fields =>
    match fields.lookup key with
    | none => do
      return fields ++ [(key, .table p.made (← change p f path p.made []))]
    | some (.table kind inner) =>
      if p.mayEnter kind then do
        return Fields.set key (.table kind (← change p f path kind inner)) fields
      else none
    | some (.tables items) =>
      match items.getLast? with
      | none => none
      | some last => do
        let last ← change p f path .explicit last
        return Fields.set key (.tables (items.dropLast ++ [last])) fields
    | some _ => none

end Passage

/-! ## Keys and headers -/

/-- Gives a value to a key with a path before it. A path leads to a table that dotted
keys made. -/
def assign (p : Passage) (path : List String) (key : String) (v : Value) (kind : TableKind)
    (fields : Fields) : Option Fields :=
  p.change (fun kind inner =>
    if path.isEmpty || kind == p.made then inner.add? key v else none) path kind fields

/-- Opens the table of a header. A table that was only passed through becomes
explicit. -/
def openTable (path : List String) (key : String) (root : Fields) : Option Fields :=
  Passage.header.change (fun _ fields =>
    match fields.lookup key with
    | none => fields.add? key (.table .explicit [])
    | some (.table .implicit inner) => some (Fields.set key (.table .explicit inner) fields)
    | some _ => none) path .explicit root

/-- Appends a table to the array of a header. -/
def openArray (path : List String) (key : String) (root : Fields) : Option Fields :=
  Passage.header.change (fun _ fields =>
    match fields.lookup key with
    | none => fields.add? key (.tables [[]])
    | some (.tables items) => some (Fields.set key (.tables (items ++ [[]])) fields)
    | some _ => none) path .explicit root

end QuillImage.Toml
