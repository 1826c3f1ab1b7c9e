import Hypermark.Markdown.Edits
import Hypermark.Markdown.Identifier
import Hypermark.Markdown.Link

/-!
# Links, images and calls of footnotes

An opening bracket waits for its closing one.  What stands between them is the text of a link or an image
if a destination or a reference to a definition follows, or if it is such a reference itself; the label of
a footnote calls it.

* `Scan.linkOpening`, `Scan.imageOpening` and `Scan.footnoteOpening` read an opening bracket, and
  `Scan.closing` a closing one.
* `LabelPair.resolve` finds the links of a trace.
-/

namespace Hypermark

namespace Markdown

namespace Scan

/-- An opening bracket waits for its closing one; its part has so many events. -/
def await (kind : Opening) (events : Nat) : Scan Unit := modify fun s =>
  { s with labelStarts := ⟨kind, false, s.count - events, s.count, false⟩ :: s.labelStarts }

/-- The opening bracket of a link. -/
def linkOpening : Scan Unit := do
  enter (.opening .link)
  single .bracket
  exit (.opening .link)
  await .link 4

/-- The opening bracket of an image.  A caret behind it makes it that of a footnote. -/
def imageOpening : Scan Unit := do
  enter (.opening .image)
  single .openingMarker
  if (← peek) = some '[' then
    single .bracket
    exit (.opening .image)
    let c ← peek
    if (← get).setting.constructs.gfmLabelStartFootnote && c = some '^' then fail
    else await .image 6
  else fail

/-- The opening bracket of the call of a footnote. -/
def footnoteOpening : Scan Unit := do
  if (← get).setting.constructs.gfmLabelStartFootnote then
    enter (.opening .footnote)
    single .bracket
    if (← peek) = some '^' then
      single .openingMarker
      exit (.opening .footnote)
      await .footnote 6
    else fail
  else fail

/-- How deep parentheses may be in the destination of a link. -/
def resourceDepth : Nat := 32

/-- Blanks and a line ending, if there are any. -/
def optionalBlanks : Scan Unit := do
  if (← peek).any isSpaceOrEnding then
    let _ ← attempt (blanksOrEnding none)

/-- What a link leads to, between parentheses. -/
def resource : Scan Unit := do
  enter .resource
  single .resourceMarker
  optionalBlanks
  if (← peek) ≠ some ')' then
    destination .link (some resourceDepth)
    if (← peek).any isSpaceOrEnding then
      let _ ← attempt (blanksOrEnding none)
      if ((← peek).bind titleMark?).isSome then
        title .link
        optionalBlanks
  if (← peek) = some ')' then
    single .resourceMarker
    exit .resource
  else fail

/-- A reference to a definition. -/
def fullReference : Scan Unit := do
  let text ← label .link
  let _ ← peek
  if !(← get).setting.definitions.contains (Identifier.ofLabel text) then fail

/-- Empty brackets behind a reference to a definition. -/
def collapsedReference : Scan Unit := do
  enter (.label .link)
  single .labelMarker
  if (← peek) = some ']' then
    single .labelMarker
    exit (.label .link)
  else fail

/-- The bracket closes the last opening one. -/
def closePair (stop : Nat) : Scan Unit := modify fun s =>
  match s.labelStarts with
  | [] => s
  | start :: rest =>
    let rest :=
      if start.kind = .image then rest
      else rest.map fun r => if r.kind = .image then r else { r with inactive := true }
    { s with labelStarts := rest, labels := ⟨start, stop, s.count⟩ :: s.labels }

/-- The last opening bracket has no closing one, and this is none. -/
def dropStart {α : Type} : Scan α := do
  modify fun s =>
    match s.labelStarts with
    | [] => s
    | start :: rest => { s with labelStarts := rest, looseStarts := start :: s.looseStarts }
  fail

/-- What follows on a closing bracket of a text, which may be the label of a definition.  In front of a
bracket that opens another label such a text is no reference by itself. -/
def closingRest (defined : Bool) : Scan Bool := do
  match ← peek with
  | some '(' =>
    if ← attempt resource then return true else return defined
  | some '[' =>
    if ← attempt fullReference then return true
    else if defined then attempt collapsedReference
    else return false
  | _ => return defined

/-- The identifier between the last opening bracket and a closing one, `stop` events in. -/
def betweenBrackets (s : State) (start : LabelStart) (stop : Nat) : String :=
  let place (events : Nat) : Mark := ((s.events[s.count - events]?).map Event.mark).getD Mark.origin
  Identifier.ofLabel (s.source.written (place start.behind) (place (stop + 1)))

/-- A closing bracket, and what follows on it. -/
def closing : Scan Unit := do
  let s ← get
  match s.labelStarts with
  | [] => fail
  | start :: rest =>
    if start.inactive then dropStart
    else
      let stop := s.count
      enter .closing
      single .bracket
      exit .closing
      let _ ← peek
      let s ← get
      let identifier := betweenBrackets s start stop
      if start.kind = .footnote && s.setting.footnotes.contains identifier then closePair stop
      else
        let isFootnote := start.kind = .footnote
        modify fun s =>
          { s with labelStarts := { start with undefined := start.undefined || isFootnote } :: rest }
        let identifier := if isFootnote then "^" ++ identifier else identifier
        if ← closingRest (s.setting.definitions.contains identifier) then closePair stop
        else dropStart

end Scan

namespace LabelPair

/-- What a pair of brackets makes of its text. -/
def token (pair : LabelPair) : Token :=
  match pair.start.kind with
  | .image => .image
  | .link => .link
  | .footnote => if pair.start.undefined then .link else .footnoteCall

/-- The caret behind an opening bracket is text, if there is no such footnote. -/
def addCaret (t : Trace) (edits : Edits) (start : LabelStart) : Trace × Edits × List Event :=
  let last := start.behind - 1
  match if start.undefined then t[last - 2]? else none, t[last - 1]? with
  | some a, some b =>
    let t := t.modify start.first fun e => { e with token := .opening .link }
    let t := t.modify last fun e => { e with token := .opening .link, mark := a.mark, cell := a.cell }
    (t, edits.leaveOut (last - 2) 2, [.enterAt .data a, .exitAt .data b])
  | _, _ => (t, edits, [])

/-- Puts events in front of one, at its place. -/
def insertAt (t : Trace) (edits : Edits) (i : Nat) (place : Nat) (make : List (Event → Event)) :
    Edits :=
  match t[place]? with
  | some e => edits.insert i (make.map (· e))
  | none => edits

/-- Puts what a pair of brackets makes into a trace. -/
def addTo (t : Trace) (edits : Edits) (pair : LabelPair) : Trace × Edits :=
  let start := pair.start
  let (t, edits, caret) := addCaret t edits start
  let edits := insertAt t edits start.first start.first
    [.enterAt pair.token, .enterAt .span]
  let edits := match t[start.behind - 1]? with
    | some e => edits.insertFirst start.behind [.enterAt .spanText e]
    | none => edits
  let edits := insertAt t edits pair.stop pair.stop [.exitAt .spanText]
  let edits := edits.insert start.behind caret
  let edits := insertAt t edits (pair.stop + 4) (pair.stop + 3) [.exitAt .span]
  (t, insertAt t edits pair.behind (pair.behind - 1) [.exitAt pair.token])

/-- An opening bracket without a closing one is text. -/
def addText (t : Trace) (edits : Edits) (start : LabelStart) : Edits :=
  match t[start.first]?, t[start.behind - 1]? with
  | some a, some b =>
    edits.replace start.first (start.behind - start.first) [.enterAt .data a, .exitAt .data b]
  | _, _ => edits

/-- Finds the links, images and calls of footnotes of a trace. -/
def resolve (s : State) (t : Trace) : Trace :=
  let (t, edits) := s.labels.reverse.foldl (fun (t, edits) pair => addTo t edits pair) (t, .none t)
  let edits := s.labelStarts.reverse.foldl (addText t) edits
  let edits := s.looseStarts.reverse.foldl (addText t) edits
  edits.apply t

end LabelPair

end Markdown

end Hypermark
