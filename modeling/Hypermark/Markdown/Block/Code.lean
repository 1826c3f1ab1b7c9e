import Hypermark.Markdown.Line

/-!
# Code

Code is indented, or stands between fences; formulas stand between fences of dollar signs.

* `Scan.indentedCode` and `Scan.fenced` read the lines of such a block.
-/

namespace Hypermark

namespace Markdown

namespace Scan

/-- An indented line follows, perhaps behind blank lines. -/
def furtherIndented : Scan Unit := loop () fun _ => do
  let c ← peek
  let s ← get
  if s.lazy || s.pierce then fail
  else if c = some '\n' then
    lineEnding
    return .again ()
  else if ← attempt (blanksAs .blank codeIndent (some codeIndent)) then return .done ()
  else
    blanks
    if (← peek) = some '\n' then return .again () else fail

/-- Indented code. -/
def indentedCode : Scan Unit := do
  let s ← get
  if s.interrupt || !s.setting.constructs.codeIndented || !isSpaceNext (← peek) then fail
  else
    enter .indentedCode
    blanksAs .blank codeIndent (some codeIndent)
    loop () fun _ => do
      let c ← peek
      if isLineEnd c then
        if c.isSome && (← attempt furtherIndented) then return .again ()
        else
          exit .indentedCode
          setInterrupt false
          return .done ()
      else
        enter .verbatimLine
        skipWhile fun _ => true
        exit .verbatimLine
        return .again ()

/-- The fence that opened a block. -/
structure Fence where
  kind : Verbatim
  mark : Char
  /-- The number of its marks. -/
  size : Nat
  /-- The columns in front of it. -/
  indent : Nat

namespace Fence

/-- The least number of marks. -/
def least : Verbatim → Nat
  | .code => 3
  | .math => 2

/-- The block that a mark fences. -/
def kind? (constructs : Constructs) (mark : Char) : Option Verbatim :=
  if mark = '\x60' ∨ mark = '~' then some .code
  else if mark = '$' ∧ constructs.mathFlow then some .math
  else none

/-- A mark that cannot stand behind the fence, as that would be code or a formula in a text. -/
def refuses (fence : Fence) (c : Char) : Bool := c = fence.mark && c ≠ '~'

end Fence

/-- The word or words behind a fence, as a part of some kind; `ends` tells what ends it. -/
def fenceWords (fence : Fence) (token : Token) (ends : Char → Bool) : Scan Unit := do
  enter token
  enterPending .data .string
  skipWhile fun c => !ends c && !fence.refuses c
  if (← peek).any fence.refuses then fail
  else
    exit .data
    exit token

/-- What stands behind the marks of an opening fence. -/
def fenceRest (fence : Fence) : Scan Unit := do
  blanks
  if fence.kind = .code && !isLineEnd (← peek) then
    fenceWords fence .fenceName isSpace
    blanks
  if !isLineEnd (← peek) then fenceWords fence (.fenceInfo fence.kind) fun _ => false

/-- The closing fence, on the next line. -/
def closingFence (fence : Fence) : Scan Unit := do
  lineEnding
  let _ ← peek
  enter (.fence fence.kind)
  indent
  if (← peek) = some fence.mark then
    enter .fenceRun
    let first := (← get).here
    skipWhile (· = fence.mark)
    let behind := (← get).here
    if fence.size ≤ behind - first then
      exit .fenceRun
      blanks
      if isLineEnd (← peek) then exit (.fence fence.kind) else fail
    else fail
  else fail

/-- The next line between fences, or the closing fence: then it is done. -/
def fencedLine (fence : Fence) : Scan (Turn Unit Unit) := do
  if ← check nextLine then
    if ← attempt (closingFence fence) then return .done ()
    else
      lineEnding
      let _ ← peek
      blanksAs .blank 0 (some fence.indent)
      if isLineEnd (← peek) then return .again ()
      else
        enter .verbatimLine
        skipWhile fun _ => true
        exit .verbatimLine
        return .again ()
  else return .done ()

/-- Code or a formula between fences. -/
def fenced : Scan Unit := do
  let first := (← get).mark
  indent
  match ← peek with
  | none => fail
  | some mark =>
    let s ← get
    match Fence.kind? s.setting.constructs mark with
    | none => fail
    | some kind =>
      let indent := s.source.width first s.mark
      enter (.fenced kind)
      enter (.fence kind)
      enter .fenceRun
      skipWhile (· = mark)
      let fence : Fence := ⟨kind, mark, (← get).here - s.here, indent⟩
      if fence.size < Fence.least kind then fail
      else
        exit .fenceRun
        fenceRest fence
        exit (.fence kind)
        setConcrete true
        loop () fun _ => fencedLine fence
        exit (.fenced kind)
        setInterrupt false
        setConcrete false

end Scan

end Markdown

end Hypermark
