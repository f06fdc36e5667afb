import QuillImage.Event
import QuillImage.Path

/-!
# Sinks

Finished files go to a sink. A sink is a way to write a file into some state, and it
may fail. This file defines sinks and the one that keeps everything in memory.
-/

namespace QuillImage

/-- Why a sink did not take a file. -/
inductive SinkError where
  /-- A directory on the way to the file cannot be made. -/
  | create (directory : String)
  /-- The file cannot be written. -/
  | write (path : String)
  /-- The sink takes no files. -/
  | refused (path : String) (size : Nat)
  deriving DecidableEq, Repr

/-- The wording of an error. -/
def SinkError.message : SinkError → String
  | create directory => "Failed to create " ++ directory
  | write path => "Failed to write " ++ path
  | refused path size => "refused " ++ path ++ " (" ++ toString size ++ " bytes)"

/-- A way to write files into a state. -/
structure Sink (σ : Type) where
  /-- Writes a file at a path. The result is what is reported or an error, and the state
  after it. -/
  write : String → Bytes → σ → Except SinkError (List Event) × σ

/-- The sink that takes no files. -/
def Sink.refusing (σ : Type) : Sink σ :=
  ⟨fun path bytes s => (.error (.refused path bytes.length), s)⟩

/-- Files that were written, the earliest first. -/
structure Outputs where
  files : List (String × Bytes) := []
  deriving DecidableEq, Repr

namespace Outputs

/-- The files with one more. -/
def push (o : Outputs) (path : String) (bytes : Bytes) : Outputs := ⟨o.files ++ [(path, bytes)]⟩

/-- The latest file with the components of a path. -/
def get? (o : Outputs) (path : String) : Option Bytes :=
  (o.files.reverse.find? fun f => Path.components f.1 = Path.components path).map (·.2)

/-- The sink that keeps files in memory. -/
def sink : Sink Outputs := ⟨fun path bytes o => (.ok [], o.push path bytes)⟩

end Outputs

end QuillImage
