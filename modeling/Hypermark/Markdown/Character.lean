import Hypermark.Text.Blank
import Hypermark.Text.Punctuation

/-!
# Classes of characters

The marks of Markdown are characters of ASCII; what stands beside them may be any character.

* `Kind.of` is the class of a character beside a run of marks.
-/

namespace Hypermark

namespace Markdown

/-- A space or a tab. -/
def isSpace (c : Char) : Bool := c = ' ' || c = '\t'

/-- A space, a tab or a line ending. -/
def isSpaceOrEnding (c : Char) : Bool := isSpace c || c = '\n'

/-- A control character of ASCII. -/
def isControl (c : Char) : Bool := c.toNat < 0x20 || c.toNat = 0x7f

/-- A punctuation character of ASCII. -/
def isAsciiPunctuation (c : Char) : Bool :=
  let n := c.toNat
  (0x21 ≤ n && n ≤ 0x2f) || (0x3a ≤ n && n ≤ 0x40) || (0x5b ≤ n && n ≤ 0x60)
    || (0x7b ≤ n && n ≤ 0x7e)

/-- A hexadecimal digit. -/
def isHexDigit (c : Char) : Bool :=
  c.isDigit || ('a' ≤ c && c ≤ 'f') || ('A' ≤ c && c ≤ 'F')

/-- The line ends with this character, or the text does. -/
def isLineEnd : Option Char → Bool
  | some c => c = '\n'
  | none => true

/-- How a character counts beside a run of marks. -/
inductive Kind where
  | blank
  | punctuation
  | other
deriving DecidableEq, Repr, Inhabited

/-- The class of a character; the end of a document counts as blank. -/
def Kind.of : Option Char → Kind
  | none => .blank
  | some c =>
    if Text.isBlank c then .blank
    else if isAsciiPunctuation c || Text.isPunctuation c then .punctuation
    else .other

end Markdown

end Hypermark
