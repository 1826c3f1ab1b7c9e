import Hypermark.Json.Number

/-!
# Reading a JSON value

`Json.readValue` reads one value from the front of a list of characters and gives the characters
left; `Json.read` reads a whole text.  Arrays and objects may lie at most 127 deep.  Of a name that
is repeated in an object the last value counts.

Every step of the reader takes at least one character, so its fuel, one more than the number of
characters, never runs out.
-/

namespace Hypermark

namespace Json

/-! ## Blanks and words -/

/-- The blanks between the parts of a text. -/
def isBlank (c : Char) : Bool := c = ' ' || c = '\n' || c = '\t' || c = '\r'

/-- Skips blanks. -/
def skipBlanks : List Char → List Char
  | [] => []
  | c :: cs => if isBlank c then skipBlanks cs else c :: cs

/-- Reads the letters of a word. -/
def readWord {α : Type} (value : α) : List Char → List Char → Except JsonFault (α × List Char)
  | [], rest => .ok (value, rest)
  | _ :: _, [] => failHere .eofValue []
  | w :: ws, c :: cs =>
    if w = c then readWord value ws cs else .error ⟨.expectedIdent, .peek (c :: cs)⟩

/-! ## Strings -/

/-- The value of a hexadecimal digit. -/
def hexValue? (c : Char) : Option Nat :=
  if '0' ≤ c ∧ c ≤ '9' then some (c.toNat - '0'.toNat)
  else if 'a' ≤ c ∧ c ≤ 'f' then some (c.toNat - 'a'.toNat + 10)
  else if 'A' ≤ c ∧ c ≤ 'F' then some (c.toNat - 'A'.toNat + 10)
  else none

/-- Four hexadecimal digits.  Four bytes are taken whatever they are; fewer are the end of the text. -/
def readHex (text : List Char) : Except JsonFault (Nat × List Char) :=
  if (Stop.bytes text).length < 4 then failHere .eofString []
  else
    match text with
    | a :: b :: c :: d :: rest =>
      match hexValue? a, hexValue? b, hexValue? c, hexValue? d with
      | some a, some b, some c, some d => .ok (((a * 16 + b) * 16 + c) * 16 + d, rest)
      | _, _, _, _ => .error ⟨.invalidEscape, ⟨text, 4⟩⟩
    | _ => .error ⟨.invalidEscape, ⟨text, 4⟩⟩

/-- The character that two halves of a pair stand for. -/
def joinPair (high low : Nat) : Char :=
  Char.ofNat ((high - 0xd800) * 0x400 + (low - 0xdc00) + 0x10000)

/-- The second half of a pair. -/
def readLowHalf (high : Nat) : List Char → Except JsonFault (Char × List Char)
  | [] => failHere .eofString []
  | '\\' :: [] => failHere .eofString []
  | '\\' :: 'u' :: cs => do
    let (low, rest) ← readHex cs
    if low < 0xdc00 ∨ 0xdfff < low then failHere .loneSurrogate rest
    else .ok (joinPair high low, rest)
  | '\\' :: cs => failAt .unexpectedEndOfHexEscape cs
  | cs => failAt .unexpectedEndOfHexEscape cs

/-- What follows a backslash. -/
def readEscape : List Char → Except JsonFault (Char × List Char)
  | [] => failHere .eofString []
  | '"' :: cs => .ok ('"', cs)
  | '\\' :: cs => .ok ('\\', cs)
  | '/' :: cs => .ok ('/', cs)
  | 'b' :: cs => .ok ('\x08', cs)
  | 'f' :: cs => .ok ('\x0c', cs)
  | 'n' :: cs => .ok ('\n', cs)
  | 'r' :: cs => .ok ('\r', cs)
  | 't' :: cs => .ok ('\t', cs)
  | 'u' :: cs => do
    let (code, rest) ← readHex cs
    if 0xdc00 ≤ code ∧ code ≤ 0xdfff then failHere .loneSurrogate rest
    else if code < 0xd800 ∨ 0xdbff < code then .ok (Char.ofNat code, rest)
    else readLowHalf code rest
  | cs => failAt .invalidEscape cs

/-- The characters of a string up to the closing quote, in front of `read` in reverse. -/
def readChars : (fuel : Nat) → (read : List Char) → List Char → Except JsonFault (String × List Char)
  | 0, _, rest => failHere .eofString rest
  | _ + 1, _, [] => failHere .eofString []
  | _ + 1, read, '"' :: cs => .ok (String.ofList read.reverse, cs)
  | fuel + 1, read, '\\' :: cs => do
    let (c, rest) ← readEscape cs
    readChars fuel (c :: read) rest
  | fuel + 1, read, c :: cs =>
    if c.toNat < 0x20 then failAt .controlCharacter (c :: cs)
    else readChars fuel (c :: read) cs

/-- A string, from behind its opening quote. -/
def readString (text : List Char) : Except JsonFault (String × List Char) :=
  readChars (text.length + 1) [] text

/-! ## Between items and members -/

/-- Reads the comma before an item that is not the first, and the blanks around it.  `none` is the end
of the array, which is left to be read. -/
def readItemStart (first : Bool) (text : List Char) : Except JsonFault (Option (List Char)) :=
  match skipBlanks text with
  | [] => failAt .eofList []
  | ']' :: _ => .ok none
  | c :: cs =>
    if first then .ok (some (c :: cs))
    else if c = ',' then
      match skipBlanks cs with
      | [] => failAt .eofValue []
      | ']' :: rest => failAt .trailingComma (']' :: rest)
      | rest => .ok (some rest)
    else failAt .expectedListCommaOrEnd (c :: cs)

/-- Reads up to the opening quote of the next name, which is read too.  `none` is the end of the
object, which is left to be read. -/
def readNameStart (first : Bool) (text : List Char) : Except JsonFault (Option (List Char)) :=
  match skipBlanks text with
  | [] => failAt .eofObject []
  | '\x7d' :: _ => .ok none
  | c :: cs =>
    if first then
      if c = '"' then .ok (some cs) else failAt .keyMustBeString (c :: cs)
    else if c = ',' then
      match skipBlanks cs with
      | [] => failAt .eofValue []
      | '"' :: rest => .ok (some rest)
      | '\x7d' :: rest => failAt .trailingComma ('\x7d' :: rest)
      | rest => failAt .keyMustBeString rest
    else failAt .expectedObjectCommaOrEnd (c :: cs)

/-- Reads the colon behind a name. -/
def readColon (text : List Char) : Except JsonFault (List Char) :=
  match skipBlanks text with
  | [] => failAt .eofObject []
  | ':' :: rest => .ok rest
  | rest => failAt .expectedColon rest

/-! ## Values -/

/-- How deep arrays and objects may lie. -/
def maxNesting : Nat := 127

mutual

/-- A value; `depth` more arrays and objects may open. -/
def readValueWith : (fuel depth : Nat) → List Char → Except JsonFault (Json × List Char)
  | 0, _, rest => failHere .eofValue rest
  | fuel + 1, depth, text =>
    match skipBlanks text with
    | [] => failAt .eofValue []
    | 'n' :: cs => readWord .null ['u', 'l', 'l'] cs
    | 't' :: cs => readWord (.bool true) ['r', 'u', 'e'] cs
    | 'f' :: cs => readWord (.bool false) ['a', 'l', 's', 'e'] cs
    | '-' :: cs => do
      let (value, rest) ← readNumber true cs
      .ok (.num value, rest)
    | '"' :: cs => do
      let (value, rest) ← readString cs
      .ok (.str value, rest)
    | '[' :: cs =>
      match depth with
      | 0 => failAt .recursionLimit ('[' :: cs)
      | depth + 1 => readItemsWith fuel depth true [] cs
    | '\x7b' :: cs =>
      match depth with
      | 0 => failAt .recursionLimit ('\x7b' :: cs)
      | depth + 1 => readMembersWith fuel depth true [] cs
    | c :: cs =>
      if (digit? c).isSome then do
        let (value, rest) ← readNumber false (c :: cs)
        .ok (.num value, rest)
      else failAt .expectedValue (c :: cs)

/-- The items of an array behind those in `read`, which are in reverse. -/
def readItemsWith : (fuel depth : Nat) → (first : Bool) → (read : List Json) → List Char →
    Except JsonFault (Json × List Char)
  | 0, _, _, _, rest => failHere .eofList rest
  | fuel + 1, depth, first, read, text => do
    match ← readItemStart first text with
    | none => .ok (.arr read.reverse, (skipBlanks text).drop 1)
    | some text =>
      let (item, rest) ← readValueWith fuel depth text
      readItemsWith fuel depth false (item :: read) rest

/-- The members of an object behind those in `read`. -/
def readMembersWith : (fuel depth : Nat) → (first : Bool) → (read : Members Json) → List Char →
    Except JsonFault (Json × List Char)
  | 0, _, _, _, rest => failHere .eofObject rest
  | fuel + 1, depth, first, read, text => do
    match ← readNameStart first text with
    | none => .ok (.obj read, (skipBlanks text).drop 1)
    | some text =>
      let (name, rest) ← readString text
      let rest ← readColon rest
      let (value, rest) ← readValueWith fuel depth rest
      readMembersWith fuel depth false (read.insert name value) rest

end

/-- A value at the front of a text. -/
def readValue (text : List Char) : Except JsonFault (Json × List Char) :=
  readValueWith (2 * text.length + 2) maxNesting text

/-- Nothing but blanks is left. -/
def readEnd (rest : List Char) : Except JsonFault Unit :=
  match skipBlanks rest with
  | [] => .ok ()
  | rest => failAt .trailingCharacters rest

/-- The value that a whole text holds. -/
def read (text : List Char) : Except JsonFault Json := do
  let (value, rest) ← readValue text
  readEnd rest
  .ok value

end Json

end Hypermark
