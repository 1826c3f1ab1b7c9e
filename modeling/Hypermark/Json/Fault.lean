import Hypermark.Json.Basic

/-!
# What can be wrong with a JSON text

A `Fault` is a cause and the place where reading stopped.  While a text is read the place is kept as
the characters that are left (`Stop`); `Stop.place` turns it into a line and a column, both counted
from the bytes that were read.
-/

namespace Hypermark

/-- What keeps a text from being JSON. -/
inductive JsonCause where
  | eofValue
  | eofList
  | eofObject
  | eofString
  | expectedValue
  | expectedIdent
  | expectedColon
  | expectedListCommaOrEnd
  | expectedObjectCommaOrEnd
  | trailingComma
  | trailingCharacters
  | keyMustBeString
  | invalidNumber
  | numberOutOfRange
  | invalidEscape
  | loneSurrogate
  | unexpectedEndOfHexEscape
  | controlCharacter
  | recursionLimit
deriving DecidableEq, Repr

namespace JsonCause

/-- The wording of a cause. -/
def message : JsonCause → String
  | eofValue => "EOF while parsing a value"
  | eofList => "EOF while parsing a list"
  | eofObject => "EOF while parsing an object"
  | eofString => "EOF while parsing a string"
  | expectedValue => "expected value"
  | expectedIdent => "expected ident"
  | expectedColon => "expected `:`"
  | expectedListCommaOrEnd => "expected `,` or `]`"
  | expectedObjectCommaOrEnd => "expected `,` or `\x7d`"
  | trailingComma => "trailing comma"
  | trailingCharacters => "trailing characters"
  | keyMustBeString => "key must be a string"
  | invalidNumber => "invalid number"
  | numberOutOfRange => "number out of range"
  | invalidEscape => "invalid escape"
  | loneSurrogate => "lone leading surrogate in hex escape"
  | unexpectedEndOfHexEscape => "unexpected end of hex escape"
  | controlCharacter => "control character (\\u0000-\\u001F) found while parsing a string"
  | recursionLimit => "recursion limit exceeded"

end JsonCause

/-- A line, counted from one, and the number of bytes read on it. -/
structure Place where
  line : Nat
  column : Nat
deriving DecidableEq, Repr

namespace Place

/-- The place as it ends a message. -/
def suffix (place : Place) : String :=
  " at line " ++ toString place.line ++ " column " ++ toString place.column

/-- The place after a list of bytes. -/
def after (bytes : List UInt8) : Place :=
  bytes.foldl (fun place byte =>
    if byte = 10 then ⟨place.line + 1, 0⟩ else ⟨place.line, place.column + 1⟩) ⟨1, 0⟩

end Place

/-- Where reading stopped: the characters left, and how many of their bytes count as read. -/
structure Stop where
  rest : List Char
  extra : Nat
deriving DecidableEq, Repr

namespace Stop

/-- Reading stopped just before `rest`. -/
def here (rest : List Char) : Stop := ⟨rest, 0⟩

/-- Reading stopped at the first byte of `rest`, which counts as read if there is one. -/
def peek (rest : List Char) : Stop := ⟨rest, 1⟩

/-- The bytes of a list of characters. -/
def bytes (chars : List Char) : List UInt8 := chars.flatMap String.utf8EncodeChar

/-- The line and column of a stop in a text. -/
def place (text : List Char) (stop : Stop) : Place :=
  let all := bytes text
  Place.after (all.take (all.length - (bytes stop.rest).length + stop.extra))

end Stop

/-- A cause and where reading stopped. -/
structure JsonFault where
  cause : JsonCause
  stop : Stop
deriving DecidableEq, Repr

namespace JsonFault

/-- The message for a fault in a text. -/
def message (text : List Char) (fault : JsonFault) : String :=
  fault.cause.message ++ (fault.stop.place text).suffix

end JsonFault

end Hypermark
