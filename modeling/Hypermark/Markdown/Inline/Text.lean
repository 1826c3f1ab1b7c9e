import Hypermark.Markdown.Component
import Hypermark.Markdown.Inline.Autolink
import Hypermark.Markdown.Inline.Data
import Hypermark.Markdown.Inline.Emphasis
import Hypermark.Markdown.Inline.Html
import Hypermark.Markdown.Inline.Label
import Hypermark.Markdown.Inline.Reference
import Hypermark.Markdown.Inline.Verbatim
import Hypermark.Markdown.Splice

/-!
# Texts

A text is plain but for what stands between some marks.  A string, such as the title of a link, has
nothing but escapes and character references.

* `Reading.text` and `Reading.string` are the readings of both.
-/

namespace Hypermark

namespace Markdown

namespace Scan

/-- A character that may start a construct in a text. -/
def isTextMark (c : Char) : Bool := "!$&*<HW[\\]_\x60hw\x7b~".toList.contains c

/-- A character that may start a construct in a string. -/
def isStringMark (c : Char) : Bool := c = '&' || c = '\\'

/-- A tag in a text. -/
def textTag : Scan Unit := do
  if (← get).setting.constructs.jsx then tag .text else fail

/-- An expression in a text. -/
def textExpression : Scan Unit := do
  if (← get).setting.constructs.jsx then expression (.expression .text) .text else fail

/-- The constructs that may start at a character of a text, in the order in which they are tried. -/
def textConstructs (c : Char) : List (Scan Unit) :=
  if c = '!' then [imageOpening]
  else if c = '$' || c = '\x60' then [inlineVerbatim]
  else if c = '&' then [reference]
  else if c = '*' || c = '_' || c = '~' then [run]
  else if c = '<' then [autolink, htmlText, textTag]
  else if c = 'H' || c = 'h' then [protocolLiteral]
  else if c = 'W' || c = 'w' then [webLiteral]
  else if c = '[' then [footnoteOpening, linkOpening]
  else if c = '\\' then [escape, hardBreakEscape]
  else if c = ']' then [closing]
  else if c = '\x7b' then [textExpression]
  else []

/-- The constructs that may start at a character of a string. -/
def stringConstructs (c : Char) : List (Scan Unit) :=
  if c = '&' then [reference] else if c = '\\' then [escape] else []

/-- Constructs and plain text between them. -/
def inlines (constructs : Char → List (Scan Unit)) (isMark : Char → Bool) : Scan Unit :=
  loop () fun _ => do
    match ← peek with
    | none => return .done ()
    | some c =>
      if ← choose (constructs c ++ [data isMark]) then return .again () else fail

/-- Something follows on a check box behind blanks. -/
def taskFollows : Scan Unit := do
  skipWhile isSpace
  if (← peek).isNone then fail

/-- A check box at the start of the first paragraph of an item. -/
def task : Scan Unit := do
  let s ← get
  if s.mayCheck && s.previous.isNone && (← peek) = some '[' then
    enter .taskCheck
    single .taskMarker
    let c ← peek
    if c.any isSpaceOrEnding then single (.taskValue false)
    else if c = some 'x' || c = some 'X' then single (.taskValue true)
    else fail
    if (← peek) = some ']' then
      single .taskMarker
      exit .taskCheck
      let c ← peek
      if c = some '\n' then pure ()
      else if isSpaceNext c then
        if !(← check taskFollows) then fail
      else fail
    else fail
  else fail

/-- A text. -/
def text : Scan Unit := do
  let _ ← attempt task
  inlines textConstructs isTextMark

/-- A string. -/
def string : Scan Unit := inlines stringConstructs isStringMark

end Scan

/-- How a text is read: when all of it is known, links are found first, then emphasis, and at last what is
done with plain text. -/
def Reading.text : Reading where
  scanner := Scan.text.scanner
  resolve s :=
    let t := LabelPair.resolve s s.trace
    let t := Data.merge (Run.resolve s.setting.constructs.gfmStrikethrough s.source t)
    let t := Data.trim s.source true true t
    if s.setting.constructs.gfmAutolinkLiteral then Mailbox.resolve s.source t else t

/-- How a string is read. -/
def Reading.string : Reading where
  scanner := Scan.string.scanner
  resolve s := Data.trim s.source false false (Data.merge s.trace)

end Markdown

end Hypermark
