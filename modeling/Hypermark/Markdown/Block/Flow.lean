import Hypermark.Markdown.Block.Code
import Hypermark.Markdown.Block.Heading
import Hypermark.Markdown.Block.Html
import Hypermark.Markdown.Block.Table
import Hypermark.Markdown.Component

/-!
# Blocks

A document, or what a container of it holds, is a row of blocks, and each of its lines starts a block, goes
on with one, or is blank.  The character a line starts with tells which blocks are tried, and in which
order.

* `Scan.flow` reads blocks.
-/

namespace Hypermark

namespace Markdown

namespace Scan

/-- A line of a paragraph or a definition, which is read when all its lines are known. -/
def contentLine : Scan Unit := do
  enterPending .content .content
  skipWhile fun _ => true
  exit .content
  setInterrupt true

/-- The blocks that are tried behind those that start at an angle bracket. -/
def blocksBehindTags : List (Scan Unit) :=
  [heading, underline, thematicBreak, expressionFlow, table, contentLine]

/-- The blocks that may start at a character, in the order in which they are tried. -/
def blocksAt (c : Char) : List (Scan Unit) :=
  if c = '#' then [heading, contentLine]
  else if c = '$' || c = '\x60' || c = '~' then [fenced, contentLine]
  else if c = '*' || c = '_' then [thematicBreak, contentLine]
  else if c = '<' then htmlFlow :: tagFlow :: blocksBehindTags
  else if c = 'e' || c = 'i' then [contentLine]
  else if c = '\x7b' then [expressionFlow, contentLine]
  else indentedCode :: fenced :: htmlFlow :: tagFlow :: blocksBehindTags

/-- The characters with which no blank line starts. -/
def startsBlock (c : Char) : Bool := "#$\x60~*_<ei\x7b".toList.contains c

/-- Blocks up to the end of the document. -/
def flow : Scan Unit := loop () fun _ => do
  let c ← peek
  if c.all (!startsBlock ·) && (← attempt blankRest) then
    if (← peek).isSome then
      single .blankLine
      setInterrupt false
      return .again ()
    else return .done ()
  else
    if ← choose (blocksAt (c.getD ' ')) then
      if (← peek).isSome then
        lineEnding
        return .again ()
      else return .done ()
    else fail

end Scan

end Markdown

end Hypermark
