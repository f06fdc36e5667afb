import QuillImage.Text.Hex

/-!
# Globally unique identifiers

An identifier of 16 bytes, written as 32 hexadecimal digits with hyphens after the
digits 8, 12, 16 and 20. It is read without hyphens as well, between braces, and
after `urn:uuid:`, where the case of letters does not matter. An image stores its
first three groups of bytes with the least significant byte first.
-/

namespace QuillImage

/-- A globally unique identifier. -/
structure Guid where
  /-- The bytes in the order of the text. -/
  bytes : Bytes
  length_bytes : bytes.length = 16
  deriving DecidableEq

namespace Guid

/-- The identifier of 16 bytes. -/
def ofBytes? (bytes : Bytes) : Option Guid :=
  if h : bytes.length = 16 then some ⟨bytes, h⟩ else none

/-- The identifier whose bytes are all zero. -/
def nil : Guid := ⟨zeros 16, rfl⟩

/-- The stored form: groups of four, two and two bytes reversed, and eight bytes as
they are. -/
def stored (g : Guid) : Bytes :=
  (g.bytes.take 4).reverse ++ ((g.bytes.drop 4).take 2).reverse ++
    ((g.bytes.drop 6).take 2).reverse ++ g.bytes.drop 8

/-- The text in lower case, with hyphens. -/
def text (g : Guid) : String :=
  let group (start size : Nat) : String := Bytes.toHex ((g.bytes.drop start).take size)
  String.intercalate "-" [group 0 4, group 4 2, group 6 2, group 8 2, group 10 6]

/-- The digits of a text with hyphens in their places. -/
def hyphenated? (cs : List Char) : Option (List Char) :=
  if [8, 13, 18, 23].all (fun i => cs[i]? == some '-') then
    some (cs.take 8 ++ (cs.drop 9).take 4 ++ (cs.drop 14).take 4 ++ (cs.drop 19).take 4 ++
      cs.drop 24)
  else none

/-- The digits of an identifier in any of its written forms. -/
def digits? (cs : List Char) : Option (List Char) :=
  match cs.length with
  | 32 => some cs
  | 36 => hyphenated? cs
  | 38 =>
    if cs.head? = some '\x7b' ∧ cs.getLast? = some '\x7d' then hyphenated? (cs.tail.take 36)
    else none
  | 45 =>
    if (cs.take 9).map Char.toLower = "urn:uuid:".toList then hyphenated? (cs.drop 9)
    else none
  | _ => none

/-- Reads an identifier in any of its written forms. -/
def ofText? (s : String) : Option Guid := do
  ofBytes? (← Text.readHexBytes (← digits? s.toList))

end Guid

end QuillImage
