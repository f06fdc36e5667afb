/-!
# Paths

A path is a text of segments between slashes. Empty segments and the segment `.`
do not count, except that a leading slash and a leading `.` are kept as the head of
the path. This file defines the parts of a path (`components`, `parent?`,
`fileName?`), the extension of a path (`join`), and the place of an image beside
its source (`outputPath`). Paths that are not UTF-8 are left out: they are no texts.
-/

namespace QuillImage.Path

/-- The start of a path, before its segments. -/
inductive Head where
  | none
  /-- A leading slash. -/
  | root
  /-- A leading `.` segment. -/
  | here
  deriving DecidableEq, Repr

/-- The text of a head. -/
def Head.chars : Head → List Char
  | none => []
  | root => ['/']
  | here => ['.']

/-- The segments of a text, split at every slash. -/
def segments : List Char → List (List Char)
  | [] => [[]]
  | c :: cs =>
    if c = '/' then [] :: segments cs
    else
      match segments cs with
      | [] => [[c]]
      | s :: rest => (c :: s) :: rest

/-- Segments with a slash between any two. -/
def joinSegments (ss : List (List Char)) : List Char := List.intercalate ['/'] ss

/-- The head of a path and the segments after it. -/
def split : List Char → Head × List (List Char)
  | '/' :: rest => (.root, segments rest)
  | ['.'] => (.here, [])
  | '.' :: '/' :: rest => (.here, segments ('/' :: rest))
  | cs => (.none, segments cs)

/-- Whether a segment stays where it is. -/
def isIdle (s : List Char) : Bool := s == [] || s == ['.']

/-- The segments that count, the last one first. -/
def countingBack (ss : List (List Char)) : List (List Char) := ss.reverse.dropWhile isIdle

/-- What a path leads through: its head, and its segments without the idle ones. Two
texts with the same components name the same file. -/
def components (p : String) : Head × List (List Char) :=
  let (head, ss) := split p.toList
  (head, ss.filter (!isIdle ·))

/-- `parent?` on characters. -/
def parentChars? (p : List Char) : Option (List Char) :=
  let (head, ss) := split p
  match countingBack ss with
  | _ :: before => some (head.chars ++ joinSegments (before.dropWhile isIdle).reverse)
  | [] => if head = .here then some [] else none

/-- The path without its last component. The root and the empty path have none. -/
def parent? (p : String) : Option String := (parentChars? p.toList).map String.ofList

/-- `fileName?` on characters. -/
def fileNameChars? (p : List Char) : Option (List Char) :=
  match countingBack (split p).2 with
  | last :: _ => if last = ['.', '.'] then none else some last
  | [] => none

/-- The last component of a path, if it is a name. -/
def fileName? (p : String) : Option String := (fileNameChars? p.toList).map String.ofList

/-- `join` on characters. -/
def joinChars (p q : List Char) : List Char :=
  if q.head? = some '/' then q
  else if p.getLast?.all (· = '/') then p ++ q
  else p ++ '/' :: q

/-- A path continued by another. A path that starts with a slash replaces what is
before it. -/
def join (p q : String) : String := String.ofList (joinChars p.toList q.toList)

/-- The path of an image: in the directory of the source, named for the module. -/
def outputPath (source moduleName suffix : String) : String :=
  join ((parent? source).getD "") (moduleName ++ suffix)

end QuillImage.Path
