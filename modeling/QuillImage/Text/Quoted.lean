import QuillImage.Text.Hex
import QuillImage.Text.Printable

/-!
# Quoted text

A text is shown between double quotes, with a backslash before a quote or a
backslash, letters for the common control characters, and the code point of any
other character that is not printable.
-/

namespace QuillImage.Text

/-- A character as it stands between quotes. -/
def quotedChar (c : Char) : String :=
  if c.toNat = 0 then "\\0"
  else if c = '\t' then "\\t"
  else if c = '\r' then "\\r"
  else if c = '\n' then "\\n"
  else if c = '"' then "\\\""
  else if c = '\\' then "\\\\"
  else if isPrintable c then c.toString
  else "\\u\x7b" ++ hexDigits c.toNat ++ "\x7d"

/-- A text between quotes. -/
def quoted (s : String) : String :=
  "\"" ++ String.join (s.toList.map quotedChar) ++ "\""

end QuillImage.Text
