/-!
# UTF-16 code units

String literals are stored as UTF-16. A character outside the basic plane takes
two code units, a high and a low surrogate.
-/

namespace QuillImage.Text

/-- The UTF-16 code units of a character. -/
def charUnits (c : Char) : List UInt16 :=
  if c.toNat < 0x10000 then [UInt16.ofNat c.toNat]
  else
    let n := c.toNat - 0x10000
    [UInt16.ofNat (0xd800 + n / 0x400), UInt16.ofNat (0xdc00 + n % 0x400)]

/-- The UTF-16 code units of a text. -/
def utf16 (s : String) : List UInt16 := s.toList.flatMap charUnits

end QuillImage.Text
