import Hypermark.Markdown.Scanner

/-!
# Blanks and line endings

What scanners of blocks read between their marks: blanks within a line, the end of a line, and the line
that follows.

* `Scan.blanks` reads blanks, `Scan.indent` the blanks in front of a mark.
* `Scan.nextLine` goes on to a line that has all the marks of its containers.
-/

namespace Hypermark

namespace Markdown

/-- The columns of an indented line of code. -/
def codeIndent : Nat := 4

namespace Scan

/-- The next character is a space or a tab. -/
def isSpaceNext (c : Option Char) : Bool := c.any isSpace

/-- Blanks as a part of some kind: at least and at most so many columns. -/
def blanksAs (token : Token) (least : Nat) (most : Option Nat) : Scan Unit := do
  let c ← peek
  if isSpaceNext c && most ≠ some 0 then
    let first := (← get).here
    enter token
    match most with
    | some most => skipUpTo isSpace most
    | none => skipWhile isSpace
    exit token
    let behind := (← get).here
    if behind - first < least then fail
  else if 0 < least then fail

/-- Any blanks. -/
def blanks : Scan Unit := blanksAs .blank 0 none

/-- The blanks in front of a mark as a part of some kind: too many make an indented line of code. -/
def indentAs (token : Token) : Scan Unit := do
  let s ← get
  blanksAs token 0 (if s.setting.constructs.codeIndented then some (codeIndent - 1) else none)

/-- The blanks in front of a mark. -/
def indent : Scan Unit := indentAs .blank

/-- The rest of the line is blank. -/
def blankRest : Scan Unit := do
  blanks
  if !isLineEnd (← peek) then fail

/-- A line ending. -/
def lineEnding : Scan Unit := single .lineEnding

/-- A line follows that has all the marks of its containers. -/
def nextLine : Scan Unit := do
  if (← peek) = some '\n' then
    lineEnding
    let _ ← peek
    if (← get).lazy then fail
  else fail

/-- What follows may or may not interrupt a paragraph. -/
def setInterrupt (interrupt : Bool) : Scan Unit := modify fun s => { s with interrupt }

/-- Containers may or may not start in what is being read. -/
def setConcrete (concrete : Bool) : Scan Unit := modify fun s => { s with concrete }

end Scan

end Markdown

end Hypermark
