import Hypermark.Json.Fault

/-!
# Reading a number

A number is read digit by digit into a significand of 64 bits and an exponent of ten.  Digits that no
longer fit are dropped: before the point each of them raises the exponent, after the point they are
ignored.  A number without point and exponent stays an integer while it fits in 64 bits.

`readNumber` starts at the first digit; its caller has read the sign.
-/

namespace Hypermark

namespace Json

/-- A fault just before `rest`. -/
def failHere {α : Type} (cause : JsonCause) (rest : List Char) : Except JsonFault α :=
  .error ⟨cause, .here rest⟩

/-- A fault at the first byte of `rest`. -/
def failAt {α : Type} (cause : JsonCause) (rest : List Char) : Except JsonFault α :=
  .error ⟨cause, .peek rest⟩

/-- The value of a decimal digit. -/
def digit? (c : Char) : Option Nat :=
  if '0' ≤ c ∧ c ≤ '9' then some (c.toNat - '0'.toNat) else none

/-- The largest significand, `2 ^ 64 - 1`. -/
def maxSignificand : Nat := 18446744073709551615

/-- The largest exponent that is written out, `2 ^ 31 - 1`. -/
def maxExponent : Nat := 2147483647

/-- The digits read so far, as a number, and how many there were. -/
structure Digits where
  value : Nat
  count : Nat
  /-- The next digit does not fit. -/
  full : Bool
  rest : List Char

/-- Reads digits as long as the number stays within a bound. -/
def readDigits (bound value count : Nat) : List Char → Digits
  | [] => ⟨value, count, false, []⟩
  | c :: cs =>
    match digit? c with
    | none => ⟨value, count, false, c :: cs⟩
    | some d =>
      if bound < value * 10 + d then ⟨value, count, true, c :: cs⟩
      else readDigits bound (value * 10 + d) (count + 1) cs

/-- Skips digits and counts them. -/
def skipDigits (count : Nat) : List Char → Nat × List Char
  | [] => (count, [])
  | c :: cs => if (digit? c).isSome then skipDigits (count + 1) cs else (count, c :: cs)

/-- The number with a significand and an exponent, read up to `rest`. -/
def scaled (negative : Bool) (significand : Nat) (exponent : Int) (rest : List Char) :
    Except JsonFault (JsonNumber × List Char) :=
  match Binary64.ofScientific negative significand exponent with
  | some value => .ok (.real value, rest)
  | none => failHere .numberOutOfRange rest

/-- The exponent of a number, read from behind the `e`. -/
def readExponent (negative : Bool) (significand : Nat) (start : Int) (text : List Char) :
    Except JsonFault (JsonNumber × List Char) :=
  let (positive, text) : Bool × List Char :=
    match text with
    | '+' :: cs => (true, cs)
    | '-' :: cs => (false, cs)
    | cs => (true, cs)
  match text with
  | [] => failHere .eofValue []
  | c :: cs =>
    match digit? c with
    | none => .error ⟨.invalidNumber, .peek (c :: cs)⟩
    | some d =>
      let digits := readDigits maxExponent d 1 cs
      if digits.full then
        if significand ≠ 0 ∧ positive then failHere .numberOutOfRange (digits.rest.drop 1)
        else .ok (.real (.zero negative), (skipDigits 0 digits.rest).2)
      else
        let exponent : Int := digits.value
        scaled negative significand (if positive then start + exponent else start - exponent)
          digits.rest

/-- The exponent of a number, if there is one. -/
def readOptionalExponent (negative : Bool) (significand : Nat) (start : Int) :
    List Char → Except JsonFault (JsonNumber × List Char)
  | 'e' :: cs => readExponent negative significand start cs
  | 'E' :: cs => readExponent negative significand start cs
  | rest => scaled negative significand start rest

/-- The digits of a number behind the point. -/
def readFraction (negative : Bool) (significand : Nat) (start : Int) (text : List Char) :
    Except JsonFault (JsonNumber × List Char) :=
  let digits := readDigits maxSignificand significand 0 text
  if digits.full then
    readOptionalExponent negative digits.value (start - digits.count) (skipDigits 0 digits.rest).2
  else if digits.count = 0 then
    match digits.rest with
    | [] => failAt .eofValue []
    | rest => failAt .invalidNumber rest
  else readOptionalExponent negative digits.value (start - digits.count) digits.rest

/-- A number without point and exponent; below `-2 ^ 63` it is no integer any more. -/
def whole (negative : Bool) (significand : Nat) : JsonNumber :=
  if negative then
    if significand = 0 ∨ 9223372036854775808 < significand then .real (.ofRatio true significand 1)
    else .int (-significand)
  else .int significand

/-- The rest of a number whose digits before the point fit. -/
def readTail (negative : Bool) (significand : Nat) : List Char → Except JsonFault (JsonNumber × List Char)
  | '.' :: cs => readFraction negative significand 0 cs
  | 'e' :: cs => readExponent negative significand 0 cs
  | 'E' :: cs => readExponent negative significand 0 cs
  | rest => .ok (whole negative significand, rest)

/-- The rest of a number whose digits before the point do not fit: the ones left raise the exponent. -/
def readLongTail (negative : Bool) (significand : Nat) (text : List Char) :
    Except JsonFault (JsonNumber × List Char) :=
  match skipDigits 0 text with
  | (dropped, '.' :: cs) => readFraction negative significand dropped cs
  | (dropped, rest) => readOptionalExponent negative significand dropped rest

/-- A number, from its first digit on. -/
def readNumber (negative : Bool) : List Char → Except JsonFault (JsonNumber × List Char)
  | [] => failHere .eofValue []
  | c :: cs =>
    match digit? c with
    | none => .error ⟨.invalidNumber, .peek (c :: cs)⟩
    | some 0 =>
      match cs with
      | d :: _ => if (digit? d).isSome then failAt .invalidNumber cs else readTail negative 0 cs
      | [] => readTail negative 0 []
    | some d =>
      let digits := readDigits maxSignificand d 1 cs
      if digits.full then readLongTail negative digits.value digits.rest
      else readTail negative digits.value digits.rest

end Json

end Hypermark
