import QuillImage.Failure
import QuillImage.Path

/-!
# Diagnostics

Errors are shown to people on a console, which can be turned off for a while. Turning
it off gives a guard; when the guard is released, the console is again as it was when
the guard was made, whatever other guards do.
-/

namespace QuillImage

/-- What is said about an error. -/
structure Report where
  message : String
  /-- The path of the source. -/
  file : Option String := none
  note : Option String := none
  deriving DecidableEq, Repr

namespace Report

/-- A word in a colour of the terminal. -/
def colored (code word : String) : String := "\x1b[" ++ code ++ "m" ++ word ++ "\x1b[0m"

/-- The lines of a report. Of the path only the file name is shown. -/
def text (r : Report) : String :=
  let place := match r.file with
    | some path => "  --> " ++ (Path.fileName? path).getD "file" ++ "\n"
    | none => ""
  let note := match r.note with
    | some note => colored "34" "note" ++ ": " ++ note ++ "\n"
    | none => ""
  colored "31" "error" ++ ": " ++ r.message ++ "\n" ++ place ++ note

/-- The report of an internal error. -/
def ofFailure (f : Failure) (file note : Option String) : Report :=
  ⟨"internal compiler error: " ++ f.message, file, note⟩

end Report

/-- The console: whether it is on, and the guards in the order in which they were made.
A guard holds what the console was before it, until it is released. -/
structure Console where
  enabled : Bool := true
  guards : List (Option Bool) := []
  deriving DecidableEq, Repr

namespace Console

/-- Turns the console off, with a new guard. -/
def suppress (c : Console) : Console := ⟨false, c.guards ++ [some c.enabled]⟩

/-- Releases a guard. A guard that was released before has no effect. -/
def release (c : Console) (guard : Nat) : Console :=
  match c.guards[guard]? with
  | some (some before) => ⟨before, c.guards.set guard none⟩
  | _ => c

/-- What the console shows of a report. -/
def shown (c : Console) (r : Report) : String := if c.enabled then r.text else ""

end Console

end QuillImage
