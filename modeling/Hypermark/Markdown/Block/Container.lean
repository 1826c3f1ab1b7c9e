import Hypermark.Markdown.Block.Heading
import Hypermark.Markdown.Identifier

/-!
# Containers

Quotes, items of lists and footnotes contain blocks.  Each has a mark on its first line, and on further
lines another mark or an indentation.

* `Scan.newContainers` are the scanners of the marks of new containers.
* `Scan.continueContainer` reads the mark with which a container goes on.
-/

namespace Hypermark

namespace Markdown

/-- A container that is open. -/
inductive Container where
  | quote
  /-- The columns that its content is indented; `bare` tells that nothing but blank lines followed on its
  mark. -/
  | item (width : Nat) (bare : Bool)
  | footnote
deriving DecidableEq, Repr, Inhabited

/-- The part of a document that a container is. -/
def Container.token : Container → Token
  | .quote => .quote
  | .item .. => .item
  | .footnote => .footnote

namespace Scan

/-- The mark of a quote. -/
def quoteMark : Scan Unit := do
  indent
  if (← peek) = some '>' then
    enter .quotePrefix
    single .quoteMarker
    if isSpaceNext (← peek) then single .blank
    exit .quotePrefix
  else fail

/-- The first mark of a quote. -/
def quote : Scan Unit := do
  enter .quote
  quoteMark

/-- The most digits of the number of an item. -/
def itemDigits : Nat := 9

/-- The blanks behind the mark of an item. -/
def itemBlanks : Scan Unit := do
  blanksAs .blank 1 (some codeIndent)
  if isSpaceNext (← peek) then fail

/-- The mark of an item of which the first cell is known, and what follows on it.  A line ending of two
characters counts twice. -/
def itemMarker (first : Mark) : Scan Unit := do
  single .itemMarker
  let _ ← peek
  let bare ← check blankRest
  if !bare then
    if !(← attempt itemBlanks) then
      if isSpaceNext (← peek) then single .blank else fail
  let _ ← peek
  let s ← get
  if bare && s.interrupt then fail
  else
    let m := s.mark
    let ending := if bare && s.source.bytes m.offset (m.offset + 2) = "\r\n" then 1 else 0
    let width := s.source.width first m + (if bare then 1 else 0) + ending
    modify fun s => { s with width, bare }
    exit .itemPrefix

/-- The number of an item.  Only the first item can interrupt a paragraph. -/
def itemNumber (first : Mark) : Scan Unit := do
  enter .itemPrefix
  enter .itemNumber
  let behind := (← get).here
  skipUpTo Char.isDigit itemDigits
  let c ← peek
  let s ← get
  if (c = some '.' || c = some ')') && (!s.interrupt || s.here - behind < 2) then
    exit .itemNumber
    itemMarker first
  else fail

/-- The mark of an item. -/
def item : Scan Unit := do
  let first := (← get).mark
  enter .item
  indent
  match ← peek with
  | none => fail
  | some c =>
    if c = '*' || c = '-' then
      if ← check thematicBreak then fail
      else
        enter .itemPrefix
        itemMarker first
    else if c = '+' then
      enter .itemPrefix
      itemMarker first
    else if c = '1' || (c.isDigit && !(← get).interrupt) then itemNumber first
    else fail

/-- The indentation with which an item goes on. -/
def itemIndent (width : Nat) (bare : Bool) : Scan Unit := do
  if ← check blankRest then
    if bare then fail else blanksAs .blank 0 (some width)
  else
    modify fun s => { s with bare := false }
    if isSpaceNext (← peek) then blanksAs .blank width (some width) else fail

/-- The most bytes of the label of a footnote. -/
def footnoteLimit : Nat := 999

/-- The label of a footnote, behind its opening bracket and its mark: `size` bytes are read. -/
def footnoteLabel : Scan Unit := loop 0 fun size => do
  match ← peek with
  | none => fail
  | some c =>
    if footnoteLimit < size || isSpaceOrEnding c || c = '[' || (c = ']' && size = 0) then fail
    else if c = ']' then return .done ()
    else
      eat
      if c = '\\' then
        let d ← peek
        if d = some '[' || d = some '\\' || d = some ']' then
          eat
          return .again (size + 2)
      return .again (size + c.utf8Size)

/-- The mark of a footnote, which is its label. -/
def footnote : Scan Unit := do
  if (← get).setting.constructs.gfmFootnoteDefinition then
    enter .footnote
    indent
    if (← peek) ≠ some '[' then fail
    else
      enter .footnotePrefix
      enter (.label .footnote)
      single .labelMarker
      if (← peek) ≠ some '^' then fail
      else
        single .footnoteMarker
        let first := (← get).mark
        enter (.labelString .footnote)
        enterPending .data .string
        footnoteLabel
        exit .data
        exit (.labelString .footnote)
        let s ← get
        single .labelMarker
        exit (.label .footnote)
        if (← peek) ≠ some ':' then fail
        else
          let identifier := Identifier.ofLabel (s.source.written first s.mark)
          modify fun s => { s with footnotes := identifier :: s.footnotes }
          single .definitionMarker
          blanks
          exit .footnotePrefix
  else fail

/-- The indentation with which a footnote goes on. -/
def footnoteIndent : Scan Unit := do
  if ← check blankRest then blanksAs .blank 0 (some codeIndent)
  else if isSpaceNext (← peek) then blanksAs .blank codeIndent (some codeIndent)
  else fail

/-- The marks of new containers, in the order in which they are tried, and the containers they open. -/
def newContainers : List (Scan Unit × (State → Container)) :=
  [(quote, fun _ => .quote), (item, fun s => .item s.width s.bare), (footnote, fun _ => .footnote)]

/-- The mark with which a container goes on. -/
def continueContainer : Container → Scan Unit
  | .quote => quoteMark
  | .item width bare => itemIndent width bare
  | .footnote => footnoteIndent

/-- A container behind its mark on a further line. -/
def continuedContainer (s : State) : Container → Container
  | .item width bare => .item width (bare && s.bare)
  | c => c

end Scan

end Markdown

end Hypermark
