import QuillImage.Options.Document
import QuillImage.Output

/-!
# File trees

A tree of directories and files below a working directory. Writing a file makes the
directories on the way to it; a file in the place of a directory stops it. Paths go
through the tree segment by segment, so that `a/../b` needs the directory `a`.
-/

namespace QuillImage

/-- A file or a directory. -/
inductive FileTree.Entry where
  | directory
  | file (bytes : Bytes)
  deriving DecidableEq, Repr

/-- The entries of a tree by the names that lead to them. The working directory itself
has no names. -/
structure FileTree where
  entries : List (List (List Char) × FileTree.Entry) := []
  deriving DecidableEq, Repr

namespace FileTree

/-- A place in the tree: the names that lead to it. -/
abbrev Place := List (List Char)

/-- What is at a place. -/
def entry? (t : FileTree) (place : Place) : Option Entry :=
  if place = [] then some .directory else t.entries.lookup place

/-- Puts an entry at a place. -/
def put (t : FileTree) (place : Place) (e : Entry) : FileTree :=
  ⟨t.entries.filter (·.1 != place) ++ [(place, e)]⟩

/-- Goes through directories from a place on. Directories that are missing are made if
`making` is set; a file stops the way. The tree keeps the directories made before. -/
def walk (making : Bool) : List (List Char) → Place → FileTree → Option Place × FileTree
  | [], place, t => (some place, t)
  | s :: rest, place, t =>
    if Path.isIdle s then walk making rest place t
    else if s = ['.', '.'] then walk making rest place.dropLast t
    else
      match t.entry? (place ++ [s]) with
      | some .directory => walk making rest (place ++ [s]) t
      | some (.file _) => (none, t)
      | none =>
        if making then walk making rest (place ++ [s]) (t.put (place ++ [s]) .directory)
        else (none, t)

/-- Whether a segment names an entry of its directory. -/
def isName (s : List Char) : Bool := !Path.isIdle s && s != ['.', '.']

/-- The segments of a path before the last, and the last one. -/
def splitLast (path : String) : List (List Char) × List Char :=
  let ss := Path.segments path.toList
  (ss.dropLast, ss.getLast?.getD [])

/-- Writes a file after making the directories on the way to it. The tree keeps what was
made before a failure. -/
def write (path : String) (bytes : Bytes) (t : FileTree) :
    Except SinkError (List Event) × FileTree :=
  let parent := (Path.parent? path).getD ""
  match walk true (Path.segments parent.toList) [] t with
  | (none, t) => (.error (.create parent), t)
  | (some _, t) =>
    let (before, name) := splitLast path
    match walk false before [] t with
    | (some place, _) =>
      if isName name ∧ t.entry? (place ++ [name]) ≠ some .directory then
        (.ok [.wroteFile path bytes.length], t.put (place ++ [name]) (.file bytes))
      else (.error (.write path), t)
    | (none, _) => (.error (.write path), t)

/-- The sink that writes into a tree. -/
def sink : Sink FileTree := ⟨write⟩

/-- The bytes of the file at a path. -/
def read? (t : FileTree) (path : String) : Option Bytes :=
  let (before, name) := splitLast path
  match walk false before [] t with
  | (some place, _) =>
    if isName name then
      match t.entry? (place ++ [name]) with
      | some (.file bytes) => some bytes
      | _ => none
    else none
  | (none, _) => none

/-- The options of the document at a path. -/
def loadOptions (t : FileTree) (path : String) : Except OptionsError Options :=
  match t.read? path with
  | none => .error (.unreadable path)
  | some bytes =>
    match String.fromUTF8? ⟨bytes.toArray⟩ with
    | some text => Options.ofText text
    | none => .error (.unreadable path)

/-- The paths of all entries with their entries, in the order of the paths. -/
def listing (t : FileTree) : List (String × Entry) :=
  (t.entries.map fun (place, e) => (String.ofList (Path.joinSegments place), e)).mergeSort
    fun a b => !decide (b.1 < a.1)

end FileTree

end QuillImage
