import Hypermark.Markdown.Edits
import Hypermark.Markdown.Identifier
import Hypermark.Markdown.Link

/-!
# Definitions and paragraphs

Lines that are no other block are definitions of what labels lead to, and behind them a paragraph.

* `Scan.content` reads such lines.
* `Content.joinLines` finds which lines of a trace belong together.
-/

namespace Hypermark

namespace Markdown

namespace Scan

/-- Nothing but blanks stands on the rest of the line. -/
def lineRest : Scan Unit := do
  blanks
  if !isLineEnd (← peek) then fail

/-- The title of a definition. -/
def definitionTitle : Scan Unit := do
  blanksOrEnding none
  title .definition
  lineRest

/-- A definition. -/
def definition : Scan Unit := do
  enter .definition
  blanks
  if (← peek) ≠ some '[' then fail
  else
    let text ← label .definition
    if (← peek) ≠ some ':' then fail
    else
      single .definitionMarker
      let _ ← attempt (blanksOrEnding none)
      destination .definition none
      let _ ← attempt definitionTitle
      lineRest
      exit .definition
      modify fun s => { s with definitions := Identifier.ofLabel text :: s.definitions }

/-- A paragraph. -/
def paragraph : Scan Unit := do
  enter .paragraph
  loop false fun started => do
    let _ ← peek
    enterPending .data .text started
    skipWhile fun _ => true
    if (← peek).isSome then
      eat
      exit .data
      return .again true
    else
      exit .data
      exit .paragraph
      return .done ()

/-- Definitions, and a paragraph behind them. -/
def content : Scan Unit := loop () fun _ => do
  if ← attempt definition then
    if (← peek) = some '\n' then
      lineEnding
      return .again ()
    else return .done ()
  else
    paragraph
    return .done ()

end Scan

namespace Content

/-- The line that goes on with a line that ends at `i`. -/
def next? (t : Trace) (i : Nat) : Option Nat :=
  if (t[i + 1]?).any (·.token = .lineEnding) then
    let next := skipMarks (i + 3)
    if (t[next]?).any (·.token = .content) then some next else none
  else none
where
  /-- Leaves behind blanks and the marks of quotes. -/
  skipMarks (i : Nat) : Nat :=
    if h : i < t.size then
      if [.blank, .quotePrefix, .quoteMarker].contains t[i].token then skipMarks (i + 1) else i
    else i
  termination_by t.size - i

/-- Joins lines from `i` on: a line includes its line ending if another goes on with it. -/
def joinFrom (t : Trace) (edits : Edits) (i : Nat) : Nat → Trace × Edits
  | 0 => (t, edits)
  | fuel + 1 =>
    match t[i]? with
    | none => (t, edits)
    | some e =>
      if e.closes .content then
        match next? t i, t[i + 2]? with
        | some next, some ending =>
          let t := t.modify i fun e => { e with mark := ending.mark, cell := ending.cell }
          let t := t.modify next fun e => { e with pending := some ⟨.content, true⟩ }
          joinFrom t (edits.leaveOut (i + 1) 2) (i + 1) fuel
        | _, _ => joinFrom t edits (i + 1) fuel
      else joinFrom t edits (i + 1) fuel

/-- Joins the lines of a trace that belong together. -/
def joinLines (t : Trace) : Trace :=
  let (t, edits) := joinFrom t (.none t) 0 (t.size + 1)
  edits.apply t

end Content

end Markdown

end Hypermark
