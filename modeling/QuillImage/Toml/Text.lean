import QuillImage.Text.Hex

/-!
# Lexical parts of configuration documents

Blanks, line ends, comments and strings of a TOML document. A reader takes the
characters from a place on and gives back what it read and the characters after it.
-/

namespace QuillImage.Toml

/-- A reader: what it read, and the characters after it. -/
abbrev Reader (α : Type) := List Char → Option (α × List Char)

/-! ## Blanks, line ends and comments -/

/-- A space or a tab. -/
def isBlank (c : Char) : Bool := c == ' ' || c == '\t'

/-- Whether a character may stand in a comment: a tab, or any character that is no
control character. -/
def isPlain (c : Char) : Bool := c == '\t' || (0x20 ≤ c.toNat && c.toNat != 0x7f)

/-- The characters after the blanks. -/
def skipBlanks (cs : List Char) : List Char := cs.dropWhile isBlank

/-- The characters after a line break. -/
def lineBreak? : List Char → Option (List Char)
  | '\n' :: rest => some rest
  | '\r' :: '\n' :: rest => some rest
  | _ => none

/-- The characters after a comment, if there is one. -/
def skipComment : List Char → List Char
  | '#' :: rest => rest.dropWhile isPlain
  | cs => cs

/-- The characters after the rest of a line: blanks, a comment, and a line break unless
the document ends. -/
def lineEnd? (cs : List Char) : Option (List Char) :=
  match skipComment (skipBlanks cs) with
  | [] => some []
  | rest => lineBreak? rest

/-- Skips blanks and line breaks. -/
def skipSpaceLoop : Nat → List Char → List Char
  | 0, cs => cs
  | n + 1, cs =>
    match lineBreak? (skipBlanks cs) with
    | some rest => skipSpaceLoop n rest
    | none => skipBlanks cs

/-- The characters after blanks and line breaks. -/
def skipSpace (cs : List Char) : List Char := skipSpaceLoop cs.length cs

/-- Skips blanks, comments and line breaks. -/
def skipTriviaLoop : Nat → List Char → List Char
  | 0, cs => cs
  | n + 1, cs =>
    match skipSpace cs with
    | '#' :: rest => skipTriviaLoop n (rest.dropWhile isPlain)
    | rest => rest

/-- The characters after blanks, comments and line breaks. -/
def skipTrivia (cs : List Char) : List Char := skipTriviaLoop cs.length cs

/-! ## Strings -/

/-- The character with a code point, if it is one. -/
def charOf? (n : Nat) : Option Char := if n.isValidChar then some (Char.ofNat n) else none

/-- A character given by a number of hexadecimal digits. -/
def hexChar? (digits : Nat) (cs : List Char) : Option (Char × List Char) := do
  let values ← (cs.take digits).mapM Text.hexValue?
  if values.length = digits then
    return (← charOf? (values.foldl (16 * · + ·) 0), cs.drop digits)
  else none

/-- The character that stands for the characters after a backslash. -/
def escape? : Reader Char
  | 'b' :: rest => some ('\x08', rest)
  | 't' :: rest => some ('\t', rest)
  | 'n' :: rest => some ('\n', rest)
  | 'f' :: rest => some ('\x0c', rest)
  | 'r' :: rest => some ('\r', rest)
  | '"' :: rest => some ('"', rest)
  | '\\' :: rest => some ('\\', rest)
  | 'u' :: rest => hexChar? 4 rest
  | 'U' :: rest => hexChar? 8 rest
  | _ => none

/-- The text of characters that were collected backwards. -/
def collected (back : List Char) : String := String.ofList back.reverse

/-- The rest of a string in double quotes. -/
def basicLoop : Nat → List Char → Reader String
  | 0, _, _ => none
  | _ + 1, back, '"' :: rest => some (collected back, rest)
  | n + 1, back, '\\' :: rest => do
    let (c, rest) ← escape? rest
    basicLoop n (c :: back) rest
  | n + 1, back, c :: rest => if isPlain c then basicLoop n (c :: back) rest else none
  | _ + 1, _, [] => none

/-- The rest of a string in single quotes, in which nothing is escaped. -/
def literalLoop : List Char → Reader String
  | back, '\'' :: rest => some (collected back, rest)
  | back, c :: rest => if isPlain c then literalLoop (c :: back) rest else none
  | _, [] => none

/-- The number of equal characters at the start. -/
def runLength (q : Char) (cs : List Char) : Nat := (cs.takeWhile (· == q)).length

/-- The rest of a string of several lines. The quote that ends it may follow one or two
quotes of the text. In double quotes, a backslash at the end of a line joins it with
the next text. -/
def multilineLoop (q : Char) : Nat → List Char → Reader String
  | 0, _, _ => none
  | n + 1, back, cs =>
    let quotes := runLength q cs
    if 3 ≤ quotes then
      let kept := min 2 (quotes - 3)
      some (collected (List.replicate kept q ++ back), cs.drop (kept + 3))
    else
      match cs with
      | [] => none
      | c :: rest =>
        match lineBreak? cs with
        | some rest => multilineLoop q n ('\n' :: back) rest
        | none =>
          if q == '"' && c == '\\' then
            match lineBreak? (skipBlanks rest) with
            | some rest => multilineLoop q n back (skipSpace rest)
            | none => do
              let (c, rest) ← escape? rest
              multilineLoop q n (c :: back) rest
          else if isPlain c then multilineLoop q n (c :: back) rest
          else none

/-- The rest of a string of several lines, without a line break right at its start. -/
def multiline (q : Char) : Reader String := fun cs =>
  multilineLoop q (cs.length + 1) [] ((lineBreak? cs).getD cs)

/-- A string on one line. -/
def lineString? : Reader String
  | '"' :: rest => basicLoop (rest.length + 1) [] rest
  | '\'' :: rest => literalLoop [] rest
  | _ => none

/-- A string. -/
def string? : Reader String
  | '"' :: '"' :: '"' :: rest => multiline '"' rest
  | '\'' :: '\'' :: '\'' :: rest => multiline '\'' rest
  | cs => lineString? cs

end QuillImage.Toml
