import QuillImage.Toml.Number

/-!
# Configuration documents

The reading of a whole TOML document (`parse?`): lines with keys and values, headers
of tables and of arrays of tables, and comments. Values are nested at most 79 deep and
keys have at most 79 parts.
-/

namespace QuillImage.Toml

/-! ## Keys -/

/-- Whether a character may stand in a key without quotes. -/
def isKeyChar (c : Char) : Bool :=
  ('A' ≤ c && c ≤ 'Z') || ('a' ≤ c && c ≤ 'z') || isDigit c || c == '_' || c == '-'

/-- A part of a key: a string on one line, or characters without quotes. -/
def keyPart? (cs : List Char) : Option (String × List Char) :=
  match cs with
  | '"' :: _ | '\'' :: _ => lineString? cs
  | _ =>
    let name := cs.takeWhile isKeyChar
    if name.isEmpty then none else some (String.ofList name, cs.drop name.length)

/-- The largest number of parts of a key, and of values around a value. -/
def nestingLimit : Nat := 79

/-- The parts of a key between dots, with blanks around them. The last part comes apart
from the others. -/
def keyLoop : Nat → List String → Reader (List String × String)
  | 0, _, _ => none
  | n + 1, back, cs => do
    let (part, cs) ← keyPart? (skipBlanks cs)
    match skipBlanks cs with
    | '.' :: rest => keyLoop n (part :: back) rest
    | rest => return ((back.reverse, part), rest)

/-- A key: the path before the last part, and the last part. -/
def key? : Reader (List String × String) := keyLoop nestingLimit []

/-! ## Values -/

/-- The items of an array up to its closing bracket. A comma may follow the last
item. -/
def arrayLoop (item : Reader Value) : Nat → List Value → Reader (List Value)
  | 0, _, _ => none
  | n + 1, back, cs =>
    match skipTrivia cs with
    | ']' :: rest => some (back.reverse, rest)
    | cs => do
      let (v, cs) ← item cs
      match skipTrivia cs with
      | ',' :: rest => arrayLoop item n (v :: back) rest
      | ']' :: rest => return ((v :: back).reverse, rest)
      | _ => none

/-- The keys of an inline table up to its closing brace. No comma follows the last
one. -/
def inlineLoop (item : Reader Value) : Nat → Fields → Reader Fields
  | 0, _, _ => none
  | n + 1, fields, cs => do
    let ((path, key), cs) ← key? cs
    let (v, cs) ← item (skipBlanks (← after? '=' cs))
    let fields ← assign .inlineKey path key v .inline fields
    match skipBlanks cs with
    | ',' :: rest => inlineLoop item n fields rest
    | '\x7d' :: rest => return (fields, rest)
    | _ => none

/-- The fields of an inline table after its opening brace. -/
def inlineFields (item : Reader Value) : Reader Fields := fun cs =>
  match skipBlanks cs with
  | '\x7d' :: rest => some ([], rest)
  | _ => inlineLoop item (cs.length + 1) [] cs

/-- A value that holds no others. -/
def scalar? (cs : List Char) : Option (Value × List Char) :=
  match cs with
  | '"' :: _ | '\'' :: _ => (string? cs).map fun (s, rest) => (.string s, rest)
  | 't' :: 'r' :: 'u' :: 'e' :: rest => some (.boolean true, rest)
  | 'f' :: 'a' :: 'l' :: 's' :: 'e' :: rest => some (.boolean false, rest)
  | _ => number? cs

/-- A value, with a bound on how deeply values are nested in it. -/
def value? : Nat → Reader Value
  | 0, cs => scalar? cs
  | depth + 1, cs =>
    match cs with
    | '[' :: rest =>
      (arrayLoop (value? depth) (rest.length + 1) [] rest).map fun (items, rest) =>
        (.array items, rest)
    | '\x7b' :: rest =>
      (inlineFields (value? depth) rest).map fun (fields, rest) => (.table .inline fields, rest)
    | _ => scalar? cs

/-! ## Documents -/

/-- A document in the making, and the table that the keys of the next line go to. -/
structure Draft where
  root : Fields := []
  current : List String := []

namespace Draft

/-- Gives a value to a key of the current table. -/
def assign? (d : Draft) (path : List String) (key : String) (v : Value) : Option Draft := do
  let root ← Passage.header.change (assign .dottedKey path key v) d.current .explicit d.root
  return { d with root }

/-- Makes the table of a header the current one. -/
def enter? (d : Draft) (inArray : Bool) (path : List String) (key : String) : Option Draft := do
  let root ← (if inArray then openArray else openTable) path key d.root
  return { root, current := path ++ [key] }

end Draft

/-- The rest of a line with a header, after its first bracket. -/
def headerLine? (d : Draft) (cs : List Char) : Option (Draft × List Char) :=
  match cs with
  | '[' :: cs => do
    let ((path, key), cs) ← key? cs
    let cs ← after? ']' (← after? ']' cs)
    return (← d.enter? true path key, ← lineEnd? cs)
  | _ => do
    let ((path, key), cs) ← key? cs
    let cs ← after? ']' cs
    return (← d.enter? false path key, ← lineEnd? cs)

/-- A line with a key and a value. -/
def keyLine? (d : Draft) (cs : List Char) : Option (Draft × List Char) := do
  let ((path, key), cs) ← key? cs
  let (v, cs) ← value? nestingLimit (skipBlanks (← after? '=' cs))
  let cs ← lineEnd? cs
  return (← d.assign? path key v, cs)

/-- The lines of a document. -/
def lines? : Nat → Draft → List Char → Option Draft
  | 0, _, _ => none
  | n + 1, d, cs =>
    match skipBlanks cs with
    | [] => some d
    | '[' :: rest => do
      let (d, rest) ← headerLine? d rest
      lines? n d rest
    | c :: rest =>
      if c == '#' || c == '\n' || c == '\r' then do
        lines? n d (← lineEnd? (c :: rest))
      else do
        let (d, rest) ← keyLine? d (c :: rest)
        lines? n d rest

/-- The fields of a document. A byte order mark at its start is skipped. -/
def parse? (text : String) : Option Fields :=
  let cs := match text.toList with
    | '\ufeff' :: rest => rest
    | cs => cs
  (lines? (cs.length + 1) {} cs).map Draft.root

end QuillImage.Toml
