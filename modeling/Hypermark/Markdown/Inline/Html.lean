import Hypermark.Markdown.Line

/-!
# Raw HTML in a text

Raw HTML in a text is a tag, a comment, an instruction, a declaration or character data; it may go on over
several lines.

* `Scan.htmlText` reads one of these.
-/

namespace Hypermark

namespace Markdown

namespace Scan

/-- Raw HTML goes on on the next line. -/
def htmlNewline : Scan Unit := do
  exit .htmlTextData
  lineEnding
  blanks
  let _ ← peek
  enter .htmlTextData

/-- Characters of a class, and line endings. -/
def htmlSkip (p : Char → Bool) : Scan Unit := loop () fun _ => do
  skipWhile p
  if (← peek) = some '\n' then
    htmlNewline
    return .again ()
  else return .done ()

/-- Raw HTML up to a word of which the last character is an angle bracket, and the others, `mark`, are
all the same; as many of them as there are may come before.  `seen` of them are read. -/
def htmlUntil (mark : Char) (least seen : Nat) : Scan Unit := loop seen fun seen => do
  match ← peek with
  | none => fail
  | some c =>
    if c = '>' && least ≤ seen then return .done ()
    else if c = '\n' then
      htmlNewline
      return .again 0
    else
      eat
      return .again (if c = mark then seen + 1 else 0)

/-- The end of raw HTML. -/
def htmlEnd : Scan Unit := do
  if (← peek) = some '>' then
    eat
    exit .htmlTextData
    exit .htmlText
  else fail

/-- The word that starts character data.  The register counts its characters. -/
def htmlDataStart : Scan Unit := loop () fun _ => do
  let word := "CDATA[".toList
  let s ← get
  match ← peek, word[s.size]? with
  | some c, some d =>
    if c = d then
      eat
      if s.size + 1 = word.length then
        setSize 0
        return .done ()
      else
        addSize 1
        return .again ()
    else fail
  | _, _ => fail

/-- A blank or a line ending between the parts of a tag. -/
def htmlBlanks : Scan Unit := htmlSkip isSpace

/-- A character of the name of an attribute. -/
def isTextAttribute (c : Char) : Bool :=
  c.isAlphanum || c = '-' || c = '.' || c = ':' || c = '_'

/-- A character behind a value or a name in a tag. -/
def endsTagPart (c : Char) : Bool := isSpaceOrEnding c || c = '/' || c = '>'

/-- A character that no value without quotes has. -/
def refusedUnquoted (c : Char) : Bool := "\"'<=\x60".toList.contains c

/-- A value of an attribute. -/
def htmlValue : Scan Unit := do
  htmlBlanks
  match ← peek with
  | none => fail
  | some c =>
    if c = '"' || c = '\'' then
      eat
      htmlSkip (· ≠ c)
      if (← peek) = some c then
        eat
        if !(← peek).any endsTagPart then fail
      else fail
    else if "<=>\x60".toList.contains c then fail
    else
      eat
      skipWhile fun c => !endsTagPart c && !refusedUnquoted c
      if !(← peek).any endsTagPart then fail

/-- The attributes of a tag. -/
def htmlAttributes : Scan Unit := loop () fun _ => do
  htmlBlanks
  match ← peek with
  | none => fail
  | some c =>
    if c = '/' then
      eat
      return .done ()
    else if c.isAlpha || c = ':' || c = '_' then
      eat
      skipWhile isTextAttribute
      htmlBlanks
      if (← peek) = some '=' then
        eat
        htmlValue
      return .again ()
    else return .done ()

/-- A character of the name of an element. -/
def isElementName (c : Char) : Bool := c.isAlphanum || c = '-'

/-- Raw HTML behind its angle bracket, up to the one at its end. -/
def htmlInside : Scan Unit := do
  match ← peek with
  | none => fail
  | some c =>
    if c = '!' then
      match ← next with
      | none => fail
      | some c =>
        if c = '-' then
          if (← next) = some '-' then
            eat
            htmlUntil '-' 2 2
          else fail
        else if c = '[' then
          eat
          htmlDataStart
          htmlUntil ']' 2 0
        else if c.isAlpha then htmlSkip (· ≠ '>')
        else fail
    else if c = '/' then
      if (← next).any Char.isAlpha then
        skipWhile isElementName
        htmlBlanks
      else fail
    else if c = '?' then
      eat
      htmlUntil '?' 1 0
    else if c.isAlpha then
      skipWhile isElementName
      if (← peek).any endsTagPart then htmlAttributes else fail
    else fail

/-- Raw HTML. -/
def htmlText : Scan Unit := do
  if (← get).setting.constructs.htmlText then
    enter .htmlText
    enter .htmlTextData
    eat
    htmlInside
    htmlEnd
  else fail

end Scan

end Markdown

end Hypermark
