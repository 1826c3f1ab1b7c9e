import Hypermark.Json.Reader

/-!
# Skipping a value

A value that nobody asked for is skipped without being built: its brackets must match, but arrays and
objects may lie at any depth, numbers may be of any size, and the halves of surrogate pairs may stand
alone.
-/

namespace Hypermark

namespace Json

/-- Skips the digits of an exponent, from behind the `e`. -/
def skipExponent (text : List Char) : Except JsonFault (List Char) :=
  let text :=
    match text with
    | '+' :: cs => cs
    | '-' :: cs => cs
    | cs => cs
  match text with
  | c :: cs => if (digit? c).isSome then .ok (skipDigits 0 cs).2 else failAt .invalidNumber (c :: cs)
  | [] => failAt .invalidNumber []

/-- Skips the exponent of a number, if there is one. -/
def skipOptionalExponent : List Char → Except JsonFault (List Char)
  | 'e' :: cs => skipExponent cs
  | 'E' :: cs => skipExponent cs
  | rest => .ok rest

/-- Skips what follows the digits before the point. -/
def skipTail : List Char → Except JsonFault (List Char)
  | '.' :: cs =>
    match skipDigits 0 cs with
    | (0, rest) => failAt .invalidNumber rest
    | (_, rest) => skipOptionalExponent rest
  | rest => skipOptionalExponent rest

/-- Skips a number, from its first digit on. -/
def skipNumber : List Char → Except JsonFault (List Char)
  | [] => failAt .invalidNumber []
  | c :: cs =>
    match digit? c with
    | none => failAt .invalidNumber (c :: cs)
    | some 0 =>
      match cs with
      | d :: _ => if (digit? d).isSome then failAt .invalidNumber cs else skipTail cs
      | [] => .ok []
    | some _ => skipTail (skipDigits 0 cs).2

/-- Skips what follows a backslash. -/
def skipEscape : List Char → Except JsonFault (List Char)
  | [] => failHere .eofString []
  | 'u' :: cs => (readHex cs).map Prod.snd
  | c :: cs =>
    if ['"', '\\', '/', 'b', 'f', 'n', 'r', 't'].contains c then .ok cs
    else failAt .invalidEscape (c :: cs)

/-- Skips the characters of a string up to the closing quote. -/
def skipChars : (fuel : Nat) → List Char → Except JsonFault (List Char)
  | 0, rest => failHere .eofString rest
  | _ + 1, [] => failHere .eofString []
  | _ + 1, '"' :: cs => .ok cs
  | fuel + 1, '\\' :: cs => do
    let rest ← skipEscape cs
    skipChars fuel rest
  | fuel + 1, c :: cs =>
    if c.toNat < 0x20 then failHere .controlCharacter (c :: cs) else skipChars fuel cs

/-- Skips a string, from behind its opening quote. -/
def skipString (text : List Char) : Except JsonFault (List Char) :=
  skipChars (text.length + 1) text

/-- An array or an object that has been opened. -/
inductive Bracket where
  | array
  | object
deriving DecidableEq, Repr

namespace Bracket

/-- The character that closes it. -/
def close : Bracket → Char
  | array => ']'
  | object => '\x7d'

/-- The text ended inside it. -/
def eof : Bracket → JsonCause
  | array => .eofList
  | object => .eofObject

/-- Something else follows where a comma or the end was expected. -/
def expectedEnd : Bracket → JsonCause
  | array => .expectedListCommaOrEnd
  | object => .expectedObjectCommaOrEnd

end Bracket

/-- Skips the name of a member and its colon; an item of an array has neither. -/
def skipName (bracket : Bracket) (text : List Char) : Except JsonFault (List Char) :=
  match bracket with
  | .array => .ok text
  | .object =>
    match skipBlanks text with
    | [] => failAt .eofObject []
    | '"' :: cs => do
      let rest ← skipString cs
      readColon rest
    | rest => failAt .keyMustBeString rest

mutual

/-- Skips a value inside the brackets that are open, and everything up to the last of their ends. -/
def skipInside : (fuel : Nat) → (brackets : List Bracket) → List Char →
    Except JsonFault (List Char)
  | 0, _, rest => failHere .eofValue rest
  | fuel + 1, brackets, text =>
    match skipBlanks text with
    | [] => failAt .eofValue []
    | 'n' :: cs => do
      let ((), rest) ← readWord () ['u', 'l', 'l'] cs
      skipBehind fuel brackets rest
    | 't' :: cs => do
      let ((), rest) ← readWord () ['r', 'u', 'e'] cs
      skipBehind fuel brackets rest
    | 'f' :: cs => do
      let ((), rest) ← readWord () ['a', 'l', 's', 'e'] cs
      skipBehind fuel brackets rest
    | '-' :: cs => do
      let rest ← skipNumber cs
      skipBehind fuel brackets rest
    | '"' :: cs => do
      let rest ← skipString cs
      skipBehind fuel brackets rest
    | '[' :: cs => skipOpened fuel .array brackets cs
    | '\x7b' :: cs => skipOpened fuel .object brackets cs
    | c :: cs =>
      if (digit? c).isSome then do
        let rest ← skipNumber (c :: cs)
        skipBehind fuel brackets rest
      else failAt .expectedValue (c :: cs)

/-- Skips on from behind an opening bracket. -/
def skipOpened : (fuel : Nat) → (bracket : Bracket) → (brackets : List Bracket) → List Char →
    Except JsonFault (List Char)
  | 0, _, _, rest => failHere .eofValue rest
  | fuel + 1, bracket, brackets, text =>
    match skipBlanks text with
    | [] => failAt bracket.eof []
    | c :: cs =>
      if c = bracket.close then skipBehind fuel brackets cs
      else do
        let rest ← skipName bracket (c :: cs)
        skipInside fuel (bracket :: brackets) rest

/-- Skips on from behind a value. -/
def skipBehind : (fuel : Nat) → (brackets : List Bracket) → List Char →
    Except JsonFault (List Char)
  | 0, _, rest => failHere .eofValue rest
  | _ + 1, [], rest => .ok rest
  | fuel + 1, bracket :: brackets, text =>
    match skipBlanks text with
    | [] => failAt bracket.eof []
    | c :: cs =>
      if c = ',' then do
        let rest ← skipName bracket cs
        skipInside fuel (bracket :: brackets) rest
      else if c = bracket.close then skipBehind fuel brackets cs
      else failAt bracket.expectedEnd (c :: cs)

end

/-- Skips a value at the front of a text. -/
def skipValue (text : List Char) : Except JsonFault (List Char) :=
  skipInside (2 * text.length + 2) [] text

end Json

end Hypermark
