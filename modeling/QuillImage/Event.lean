import QuillImage.Metadata.Table
import QuillImage.Text.Hex

/-!
# Events

The passes report what they did as events. An event has a level and a line of
text; a pass gives its events back beside its result.
-/

namespace QuillImage

open Metadata

/-- The detail at which an event is of interest. -/
inductive Level where
  | debug
  | trace
  deriving DecidableEq, Repr

/-- The name of a level. -/
def Level.name : Level → String
  | debug => "DEBUG"
  | trace => "TRACE"

/-- What a pass reports. -/
inductive Event where
  /-- A backend starts on a module. -/
  | generating (backend moduleName : String)
  /-- A program was lowered to this many nodes of each category. -/
  | lowered (moduleName : String) (types vars expressions statements : Nat)
  /-- The import tables were placed. -/
  | placedImports (directory addresses : Nat)
  /-- The entry point was assembled. -/
  | assembledEntryPoint (codeSize maxDepth : Nat)
  /-- A table takes part in the metadata. -/
  | countedRows (table : Table) (rows : Nat)
  /-- A metadata stream was placed. -/
  | placedStream (name : String) (offset size : Nat)
  /-- The main method and the metadata were placed. -/
  | placedMetadata (body metadata size : Nat)
  /-- The section of an image is complete. -/
  | completedSection (image : String) (size entryPoint : Nat)
  /-- A file was written. -/
  | wroteFile (path : String) (size : Nat)
  deriving DecidableEq, Repr

namespace Event

/-- The level of an event. -/
def level : Event → Level
  | assembledEntryPoint .. | countedRows .. => .trace
  | _ => .debug

/-- The text of an event. -/
def text : Event → String
  | generating backend moduleName => backend ++ " backend: generating module " ++ moduleName
  | lowered moduleName types vars expressions statements =>
    "lowered " ++ moduleName ++ ": " ++ toString types ++ " types, " ++ toString vars ++
      " variables, " ++ toString expressions ++ " expressions, " ++ toString statements ++
      " statements"
  | placedImports directory addresses =>
    "imports at " ++ Text.hex directory ++ ", IAT at " ++ Text.hex addresses
  | assembledEntryPoint codeSize maxDepth =>
    "entry point: " ++ toString codeSize ++ " bytes of code, stack depth " ++ toString maxDepth
  | countedRows table rows => table.name ++ " table: " ++ toString rows ++ " rows"
  | placedStream name offset size =>
    "stream " ++ name ++ " at " ++ Text.hex offset ++ ", " ++ toString size ++ " bytes"
  | placedMetadata body metadata size =>
    "Main body at " ++ Text.hex body ++ ", metadata at " ++ Text.hex metadata ++ " (" ++
      toString size ++ " bytes)"
  | completedSection image size entryPoint =>
    image ++ ": .text is " ++ Text.hex size ++ " bytes, entry point " ++ Text.hex entryPoint
  | wroteFile path size => "wrote " ++ path ++ " (" ++ toString size ++ " bytes)"

/-- The level and the text of an event in one line. -/
def line (e : Event) : String := e.level.name ++ " " ++ e.text

end Event

end QuillImage
