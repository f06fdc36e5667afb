import QuillImage.Toml.Text
import QuillImage.Toml.Value

/-!
# Numbers and dates of configuration documents

Integers of 64 bits in four bases, numbers with a fraction or an exponent, and dates
and times. An underscore may stand between two digits.
-/

namespace QuillImage.Toml

/-! ## Digits -/

/-- A decimal digit. -/
def isDigit (c : Char) : Bool := '0' ≤ c && c ≤ '9'

/-- Digits after a digit, each after an underscore or not. The underscores are left
out. -/
def moreDigits (ok : Char → Bool) : List Char → Option (List Char × List Char)
  | '_' :: c :: rest =>
    if ok c then (moreDigits ok rest).map fun (ds, rest) => (c :: ds, rest) else none
  | c :: rest =>
    if ok c then (moreDigits ok rest).map fun (ds, rest) => (c :: ds, rest)
    else if c == '_' then none
    else some ([], c :: rest)
  | [] => some ([], [])

/-- One digit or more. -/
def digits? (ok : Char → Bool) : Reader (List Char)
  | c :: rest => if ok c then (moreDigits ok rest).map fun (ds, rest) => (c :: ds, rest) else none
  | [] => none

/-- The number that digits spell in a base. -/
def valueIn (base : Nat) (ds : List Char) : Nat :=
  ds.foldl (fun n c => base * n + (Text.hexValue? c).getD 0) 0

/-- The sign at the start: whether it is a minus, and the characters after it. -/
def sign : List Char → Bool × List Char
  | '-' :: rest => (true, rest)
  | '+' :: rest => (false, rest)
  | cs => (false, cs)

/-- The digits of a decimal integer, without a zero before others. -/
def decimalDigits? : Reader (List Char)
  | '0' :: rest => some (['0'], rest)
  | cs => digits? isDigit cs

/-! ## Integers -/

/-- Whether a number fits 64 bits with a sign. -/
def isInt64 (n : Int) : Bool := -0x8000000000000000 ≤ n && n < 0x8000000000000000

/-- The integer of digits in a base. -/
def radix? (base : Nat) (ok : Char → Bool) (cs : List Char) : Option (Value × List Char) := do
  let (ds, rest) ← digits? ok cs
  let n : Int := valueIn base ds
  if isInt64 n then some (.integer n, rest) else none

/-- An integer. -/
def integer? : Reader Value
  | '0' :: 'x' :: rest => radix? 16 (fun c => (Text.hexValue? c).isSome) rest
  | '0' :: 'o' :: rest => radix? 8 (fun c => '0' ≤ c && c ≤ '7') rest
  | '0' :: 'b' :: rest => radix? 2 (fun c => c == '0' || c == '1') rest
  | cs => do
    let (negative, rest) := sign cs
    let (ds, rest) ← decimalDigits? rest
    let n : Int := valueIn 10 ds
    let n := if negative then -n else n
    if isInt64 n then some (.integer n, rest) else none

/-! ## Numbers with a fraction -/

/-- The least number that is rounded to infinity: the largest finite number has 53 bits
below 2 ^ 1024, and half a unit more rounds up. -/
def infinityThreshold : Nat := Nat.pow 2 1024 - Nat.pow 2 970

/-- Whether a positive number is too large: `mantissa` with the point moved `exponent`
places to the right. Numbers of more than 400 places are, and numbers of fewer than
300 are not. -/
def isInfinite (mantissa : Nat) (exponent : Int) : Bool :=
  let places := (Nat.toDigits 10 mantissa).length + exponent
  if mantissa = 0 || places < 300 then false
  else if 400 < places then true
  else if 0 ≤ exponent then infinityThreshold ≤ mantissa * Nat.pow 10 exponent.toNat
  else infinityThreshold * Nat.pow 10 (-exponent).toNat ≤ mantissa

/-- The exponent after a mantissa, if there is one. -/
def exponent? : List Char → Option (Option Int × List Char)
  | c :: rest =>
    if c == 'e' || c == 'E' then do
      let (negative, rest) := sign rest
      let (ds, rest) ← digits? isDigit rest
      let n : Int := valueIn 10 ds
      return (some (if negative then -n else n), rest)
    else some (none, c :: rest)
  | [] => some (none, [])

/-- The text that was read, given what is left. -/
def textBefore (cs rest : List Char) : String := String.ofList (cs.take (cs.length - rest.length))

/-- Infinity and the value that is no number. -/
def special? (cs : List Char) : Option (Value × List Char) :=
  match (sign cs).2 with
  | 'i' :: 'n' :: 'f' :: rest | 'n' :: 'a' :: 'n' :: rest =>
    some (.float (textBefore cs rest), rest)
  | _ => none

/-- A number with a fraction, an exponent or both. It may not round to infinity, but may
round to minus infinity. -/
def float? (cs : List Char) : Option (Value × List Char) := do
  let (negative, rest) := sign cs
  let (whole, rest) ← decimalDigits? rest
  let (fraction, rest) ← match rest with
    | '.' :: rest => (digits? isDigit rest).map fun (ds, rest) => (some ds, rest)
    | _ => some (none, rest)
  let (exponent, rest) ← exponent? rest
  if fraction.isNone && exponent.isNone then none
  else
    let fraction := fraction.getD []
    let overflow :=
      isInfinite (valueIn 10 (whole ++ fraction)) (exponent.getD 0 - fraction.length)
    if overflow && !negative then none else some (.float (textBefore cs rest), rest)

/-! ## Dates and times -/

/-- A number of exactly so many digits, within bounds. -/
def field? (digits low high : Nat) (cs : List Char) : Option (Nat × List Char) :=
  let ds := cs.take digits
  let n := valueIn 10 ds
  if ds.length = digits && ds.all isDigit && low ≤ n && n ≤ high then some (n, cs.drop digits)
  else none

/-- The characters after a given one. -/
def after? (c : Char) : List Char → Option (List Char)
  | d :: rest => if c == d then some rest else none
  | [] => none

/-- The number of days of a month. -/
def daysIn (year month : Nat) : Nat :=
  if month == 2 then
    if year % 4 == 0 && (year % 100 != 0 || year % 400 == 0) then 29 else 28
  else if [4, 6, 9, 11].contains month then 30
  else 31

/-- The characters after a date. -/
def date? (cs : List Char) : Option (List Char) := do
  let (year, cs) ← field? 4 0 9999 cs
  let (month, cs) ← field? 2 1 12 (← after? '-' cs)
  let (_, cs) ← field? 2 1 (daysIn year month) (← after? '-' cs)
  return cs

/-- The characters after a time, with a leap second and a fraction of a second if
given. -/
def time? (cs : List Char) : Option (List Char) := do
  let (_, cs) ← field? 2 0 23 cs
  let (_, cs) ← field? 2 0 59 (← after? ':' cs)
  let (_, cs) ← field? 2 0 60 (← after? ':' cs)
  match cs with
  | '.' :: c :: rest => return if isDigit c then rest.dropWhile isDigit else cs
  | _ => return cs

/-- The characters after the distance from universal time, if there is one. -/
def skipOffset : List Char → List Char
  | c :: rest =>
    if c == 'Z' || c == 'z' then rest
    else if c == '+' || c == '-' then
      let offset : Option (List Char) := do
        let (_, cs) ← field? 2 0 23 rest
        let (_, cs) ← field? 2 0 59 (← after? ':' cs)
        return cs
      offset.getD (c :: rest)
    else c :: rest
  | [] => []

/-- The characters after a time that follows a date, if there is one. -/
def skipTime : List Char → List Char
  | c :: rest =>
    if c == 'T' || c == 't' || c == ' ' then
      match time? rest with
      | some rest => skipOffset rest
      | none => c :: rest
    else c :: rest
  | [] => []

/-- A date, a time, or both. -/
def dateTime? (cs : List Char) : Option (Value × List Char) := do
  let rest ← match date? cs with
    | some rest => some (skipTime rest)
    | none => time? cs
  return (.dateTime (textBefore cs rest), rest)

/-- A number or a date. -/
def number? (cs : List Char) : Option (Value × List Char) :=
  (dateTime? cs).or ((float? cs).or ((special? cs).or (integer? cs)))

end QuillImage.Toml
