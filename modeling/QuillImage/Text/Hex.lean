import QuillImage.Bytes

/-!
# Hexadecimal text

Offsets and addresses are shown to people in base 16, with the digits `a` to `f`
in lower case. A run of bytes is shown as two digits for each byte. Reading accepts
digits of either case.
-/

namespace QuillImage

namespace Text

/-- A number in base 16, without a marker. -/
def hexDigits (n : Nat) : String := String.ofList (Nat.toDigits 16 n)

/-- A number in base 16 after `0x`. -/
def hex (n : Nat) : String := "0x" ++ hexDigits n

/-- The value of a hexadecimal digit of either case. -/
def hexValue? (c : Char) : Option Nat :=
  if '0' ≤ c ∧ c ≤ '9' then some (c.toNat - '0'.toNat)
  else if 'a' ≤ c ∧ c ≤ 'f' then some (c.toNat - 'a'.toNat + 10)
  else if 'A' ≤ c ∧ c ≤ 'F' then some (c.toNat - 'A'.toNat + 10)
  else none

/-- A byte as two hexadecimal digits. -/
def hexByte (b : UInt8) : List Char :=
  [Nat.digitChar (b.toNat / 16), Nat.digitChar (b.toNat % 16)]

/-- The bytes that pairs of hexadecimal digits spell. -/
def readHexBytes : List Char → Option Bytes
  | [] => some []
  | high :: low :: rest => do
    return UInt8.ofNat (16 * (← hexValue? high) + (← hexValue? low)) :: (← readHexBytes rest)
  | [_] => none

/-- A 64-bit word as 16 hexadecimal digits. -/
def hexWord (v : UInt64) : String := String.ofList ((word64 v).reverse.flatMap hexByte)

end Text

namespace Bytes

/-- Two hexadecimal digits for each byte. -/
def toHex (bs : Bytes) : String := String.ofList (bs.flatMap Text.hexByte)

/-- The bytes that a text of hexadecimal digits spells. -/
def ofHex? (s : String) : Option Bytes := Text.readHexBytes s.toList

end Bytes

end QuillImage
