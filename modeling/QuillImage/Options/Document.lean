import QuillImage.Options
import QuillImage.Toml.Document

/-!
# Options from a document

Options are read from the top-level keys of a TOML document. A key that is missing
leaves the default, a key that is no option is ignored, and a value of another type
than its option makes the whole document unreadable.
-/

namespace QuillImage.Options

open Metadata

/-- A text. -/
def readText : Toml.Value → Option String
  | .string s => some s
  | _ => none

/-- An integer from zero to a limit. -/
def readBounded (limit : Nat) : Toml.Value → Option Nat
  | .integer (.ofNat n) => if n ≤ limit then some n else none
  | _ => none

/-- The first numbers of an array. What follows them does not count. -/
def readNumbers (count limit : Nat) : Toml.Value → Option (List Nat)
  | .array items =>
    if count ≤ items.length then (items.take count).mapM (readBounded limit) else none
  | _ => none

/-- The first bytes of an array. -/
def readBytes (count : Nat) (v : Toml.Value) : Option Bytes :=
  (readNumbers count 0xff v).map (·.map UInt8.ofNat)

/-- A version of four parts. -/
def readVersion (v : Toml.Value) : Option Version :=
  match readNumbers 4 0xffff v with
  | some [major, minor, build, revision] =>
    some ⟨UInt16.ofNat major, UInt16.ofNat minor, UInt16.ofNat build, UInt16.ofNat revision⟩
  | _ => none

/-- A key token. -/
def readKeyToken (v : Toml.Value) : Option KeyToken := (readBytes 8 v).bind KeyToken.ofBytes?

/-- An identifier, as text or as 16 bytes. -/
def readGuid : Toml.Value → Option Guid
  | .string s => Guid.ofText? s
  | v => (readBytes 16 v).bind Guid.ofBytes?

/-- The value of a key, or a default when the key is missing. -/
def readField {α : Type} (fields : Toml.Fields) (key : String) (read : Toml.Value → Option α)
    (default : α) : Option α :=
  match fields.lookup key with
  | some v => read v
  | none => some default

/-- The options that the fields of a document give. -/
def ofFields? (fields : Toml.Fields) : Option Options := do
  let base : Options := {}
  return {
    runtimeLibrary := ← readField fields "runtime_library" readText base.runtimeLibrary
    runtimeVersion :=
      ← readField fields "runtime_library_version" readVersion base.runtimeVersion
    runtimeKeyToken :=
      ← readField fields "runtime_public_key_token" readKeyToken base.runtimeKeyToken
    metadataVersion := ← readField fields "metadata_version" readText base.metadataVersion
    moduleGuid := ← readField fields "module_guid" (fun v => (readGuid v).map some) base.moduleGuid
    outputSuffix := ← readField fields "output_suffix" readText base.outputSuffix }

/-- The options of a document. -/
def ofText (text : String) : Except OptionsError Options :=
  match (Toml.parse? text).bind ofFields? with
  | some o => .ok o
  | none => .error .unparsable

end QuillImage.Options
