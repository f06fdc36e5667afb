import QuillImage.Image.Executable
import QuillImage.Lowering
import QuillImage.Output

/-!
# Backends

A backend takes a program and writes what it makes of it to a sink. The backend `cli`
lowers the program and writes an executable image beside the source; the backend
`null` only lowers the program.
-/

namespace QuillImage

open Syntax Image

/-- A backend. -/
inductive Backend where
  /-- Writes an image. -/
  | cli (options : Options)
  /-- Writes nothing. -/
  | null

/-- Why a backend fails. -/
inductive BackendError where
  /-- The program is not a program. -/
  | malformed (cause : Malformed)
  /-- The image cannot be made. -/
  | halt (cause : Halt)
  /-- The sink does not take the image. -/
  | sink (cause : SinkError)

namespace Backend

/-- The name of a backend. -/
def name : Backend → String
  | cli _ => "cli"
  | null => "null"

/-- The backend of a name. -/
def ofName? (name : String) (o : Options) : Option Backend :=
  match name with
  | "cli" => some (cli o)
  | "null" => some null
  | _ => none

/-- The image of a program, with what is reported about it. -/
def image (o : Options) (p : Program) (fresh : Guid) : Except Halt (Bytes × List Event) := do
  let e : Executable := { sourcePath := p.sourcePath, moduleName := p.moduleName, options := o }
  let (e, events) ← e.assemble fresh
  return (← e.bytes, events)

/-- What a backend did: the path of the image if there is one, the state of the sink,
and what is reported, also before an error. -/
structure Outcome (σ : Type) where
  path : Except BackendError (Option String)
  sink : σ
  events : List Event

/-- Runs a backend on a program. -/
def generate {σ : Type} (b : Backend) (p : Program) (fresh : Guid) (sink : Sink σ) (s : σ) :
    Outcome σ :=
  match (Lowering.lowerProgram p).run Lowering.empty with
  | .error cause => ⟨.error (.malformed cause), s, []⟩
  | .ok (_, lowered) =>
    let events := [lowered.event p]
    match b with
    | null => ⟨.ok none, s, events⟩
    | cli o =>
      match image o p fresh with
      | .error cause => ⟨.error (.halt cause), s, events⟩
      | .ok (bytes, imageEvents) =>
        let path := Path.outputPath p.sourcePath p.moduleName o.outputSuffix
        match sink.write path bytes s with
        | (.error cause, s) => ⟨.error (.sink cause), s, events ++ imageEvents⟩
        | (.ok sinkEvents, s) => ⟨.ok (some path), s, events ++ imageEvents ++ sinkEvents⟩

end Backend

/-- Writes the image of a program to a sink. -/
def generate {σ : Type} (p : Program) (o : Options) (fresh : Guid) (sink : Sink σ) (s : σ) :
    Backend.Outcome σ :=
  let b := Backend.cli o
  let outcome := b.generate p fresh sink s
  { outcome with events := .generating b.name p.moduleName :: outcome.events }

end QuillImage
