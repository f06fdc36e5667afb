import QuillImage.Guid
import QuillImage.Metadata.Row
import QuillImage.Text.Space

/-!
# Options

What a caller may choose about the images: the runtime library they use, the
version of the runtime, the identifier of the module and the suffix of the file.
Every option has a default.
-/

namespace QuillImage

open Metadata

/-- The eight bytes that identify the key of a library. -/
structure KeyToken where
  bytes : Bytes
  length_bytes : bytes.length = 8
  deriving DecidableEq

/-- The key token of eight bytes. -/
def KeyToken.ofBytes? (bytes : Bytes) : Option KeyToken :=
  if h : bytes.length = 8 then some ⟨bytes, h⟩ else none

/-- The options of a backend. -/
structure Options where
  /-- The name of the library that holds the runtime's types. -/
  runtimeLibrary : String := "mscorlib"
  runtimeVersion : Version := ⟨2, 0, 0, 0⟩
  runtimeKeyToken : KeyToken := ⟨[0xb7, 0x7a, 0x5c, 0x56, 0x19, 0x34, 0xe0, 0x89], rfl⟩
  /-- The version text of the metadata root. -/
  metadataVersion : String := "v2.0.50727"
  /-- The identifier of the module. Without one, every image gets a fresh one. -/
  moduleGuid : Option Guid := none
  outputSuffix : String := ".exe"
  deriving DecidableEq

/-- Why options cannot be read. -/
inductive OptionsError where
  /-- The text is not a document with the right types. -/
  | unparsable
  /-- The file is not there or is not text. -/
  | unreadable (path : String)
  /-- The environment names an identifier in no known form. -/
  | invalidGuid (text : String)
  deriving DecidableEq, Repr

namespace OptionsError

/-- The wording of an error. -/
def message : OptionsError → String
  | unparsable => "Failed to parse backend options"
  | unreadable path => "Failed to read backend options " ++ path
  | invalidGuid text => "QUILL_MODULE_GUID is not a valid GUID: " ++ text

end OptionsError

namespace Options

/-- The environment variables that change options. -/
structure Environment where
  /-- The value of `QUILL_MODULE_GUID`. -/
  moduleGuid : Option String := none
  /-- The value of `QUILL_METADATA_VERSION`. -/
  metadataVersion : Option String := none

/-- The options with the changes that the environment makes. -/
def override (o : Options) (env : Environment) : Except OptionsError Options := do
  let o ← match env.moduleGuid with
    | none => pure o
    | some text =>
      match Guid.ofText? (Text.trim text) with
      | some guid => pure { o with moduleGuid := some guid }
      | none => throw (.invalidGuid text)
  return match env.metadataVersion with
    | some version => { o with metadataVersion := version }
    | none => o

end Options

end QuillImage
