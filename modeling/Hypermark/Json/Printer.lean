import Hypermark.Json.Basic
import Hypermark.Decimal.Shortest

/-!
# The text of a JSON value

Compact text: no blanks, members in order.  In strings only the quote, the backslash and the control
characters below the space are escaped.  Integers are written in full; a binary number has the fewest
digits that read back, always with a point or an exponent.
-/

namespace Hypermark

/-! ## Numbers -/

/-- How binary numbers are written: positionally while the point falls within or near the digits, with
an exponent otherwise. -/
structure RealFormat where
  /-- The number of places before the point up to which notation is positional. -/
  mostPlaces : Int
  /-- The number of places before the point from which on notation is positional. -/
  fewestPlaces : Int

namespace RealFormat

/-- The text of a decimal. -/
def write (format : RealFormat) (d : Decimal) : String :=
  let digits := toString d.digits
  let places : Int := digits.length + d.exponent
  if 0 ≤ d.exponent ∧ places ≤ format.mostPlaces then
    digits ++ "".pushn '0' d.exponent.toNat ++ ".0"
  else if 0 < places ∧ places ≤ format.mostPlaces then
    String.ofList (digits.toList.take places.toNat) ++ "."
      ++ String.ofList (digits.toList.drop places.toNat)
  else if format.fewestPlaces ≤ places ∧ places ≤ 0 then
    "0." ++ "".pushn '0' (-places).toNat ++ digits
  else
    let exponent := "e" ++ toString (places - 1)
    match digits.toList with
    | [d] => String.singleton d ++ exponent
    | d :: ds => String.singleton d ++ "." ++ String.ofList ds ++ exponent
    | [] => exponent

end RealFormat

namespace JsonNumber

/-- Binary numbers are written positionally from `0.00001` up to sixteen places before the point. -/
def realFormat : RealFormat := ⟨16, -4⟩

/-- The text of a number. -/
def text : JsonNumber → String
  | int value => toString value
  | real value =>
    let digits := if value.code = 0 then "0.0" else realFormat.write value.shortest
    if value.negative then "-" ++ digits else digits

end JsonNumber

namespace Json

/-! ## Strings -/

/-- A hexadecimal digit in lower case. -/
def hexDigit (n : Nat) : Char := "0123456789abcdef".toList.getD n '0'

/-- A character inside a string: the quote, the backslash and control characters are escaped. -/
def escapeChar (c : Char) : List Char :=
  if c = '"' then ['\\', '"']
  else if c = '\\' then ['\\', '\\']
  else if c = '\n' then ['\\', 'n']
  else if c = '\r' then ['\\', 'r']
  else if c = '\t' then ['\\', 't']
  else if c = '\x08' then ['\\', 'b']
  else if c = '\x0c' then ['\\', 'f']
  else if c.toNat < 0x20 then
    ['\\', 'u', '0', '0', hexDigit (c.toNat / 16), hexDigit (c.toNat % 16)]
  else [c]

/-- A string between quotes. -/
def quote (s : String) : String :=
  "\"" ++ String.ofList (s.toList.flatMap escapeChar) ++ "\""

/-! ## Values -/

mutual

/-- The compact text of a value. -/
def print : Json → String
  | null => "null"
  | bool true => "true"
  | bool false => "false"
  | num value => value.text
  | str value => quote value
  | arr items => "[" ++ printItems items ++ "]"
  | obj members => "\x7b" ++ printMembers members ++ "\x7d"

/-- The items of an array, separated by commas. -/
def printItems : List Json → String
  | [] => ""
  | [item] => item.print
  | item :: items => item.print ++ "," ++ printItems items

/-- The members of an object, separated by commas. -/
def printMembers : List (String × Json) → String
  | [] => ""
  | [(name, value)] => quote name ++ ":" ++ value.print
  | (name, value) :: members => quote name ++ ":" ++ value.print ++ "," ++ printMembers members

end

end Json

end Hypermark
