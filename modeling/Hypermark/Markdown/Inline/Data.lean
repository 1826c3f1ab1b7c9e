import Hypermark.Markdown.Edits
import Hypermark.Markdown.Scanner

/-!
# Plain text

What is no construct is plain text.  Blanks at the ends of its lines are left out, and two spaces or more
in front of a line ending make it a break.

* `Scan.data` reads plain text up to a character that may start a construct.
* `Data.merge` joins pieces of plain text in a trace, and `Data.trim` takes blanks from them.
-/

namespace Hypermark

namespace Markdown

namespace Scan

/-- Plain text and line endings, up to a character that may start a construct.  Where it starts, such a
character is plain text. -/
def data (isMark : Char → Bool) : Scan Unit := do
  let plain : Scan Unit := do
    skipWhile (!isMark ·)
    exit .data
  if (← peek).any isMark then
    enter .data
    eat
    plain
  loop () fun _ => do
    match ← peek with
    | none => return .done ()
    | some c =>
      if isMark c then return .done ()
      else if c = '\n' then
        single .lineEnding
        return .again ()
      else
        enter .data
        plain
        return .again ()

end Scan

namespace Data

/-- The end of the last piece of plain text that touches the one which ends at `i`. -/
def farthest (t : Trace) (i : Nat) : Nat → Nat
  | 0 => i
  | fuel + 1 => if (t[i + 1]?).any (·.token = .data) then farthest t (i + 2) fuel else i

/-- Joins pieces of plain text from `i` on. -/
def mergeFrom (t : Trace) (edits : Edits) (i : Nat) : Nat → Trace × Edits
  | 0 => (t, edits)
  | fuel + 1 =>
    match t[i]? with
    | none => (t, edits)
    | some e =>
      if e.opens .data then
        let last := farthest t (i + 1) t.size
        match t[last]? with
        | some stop =>
          if i + 1 < last then
            mergeFrom (t.modify (i + 1) fun e => { e with mark := stop.mark, cell := stop.cell })
              (edits.leaveOut (i + 2) (last - i - 1)) (last + 1) fuel
          else mergeFrom t edits (i + 2) fuel
        | none => (t, edits)
      else mergeFrom t edits (i + 1) fuel

/-- Joins pieces of plain text that touch. -/
def merge (t : Trace) : Trace :=
  let (t, edits) := mergeFrom t (.none t) 0 (t.size + 1)
  edits.apply t

/-- Blanks at the end of plain text, and whether they are spaces only. -/
def blanksBehind (text : List Char) : Nat × Bool :=
  let blanks := text.reverse.takeWhile isSpace
  (blanks.length, blanks.all (· = ' '))

/-- The least number of spaces that make a break. -/
def breakSpaces : Nat := 2

/-- A piece of plain text that is trimmed: the trace and its changes, and what is left of it. -/
structure Trimming where
  trace : Trace
  edits : Edits
  /-- There is nothing but blanks. -/
  isBlank : Bool := false

namespace Trimming

/-- All of a piece is blank: it is a part of a kind. -/
def rename (m : Trimming) (i : Nat) (token : Token) : Trimming :=
  let set (e : Event) : Event := { e with token }
  { m with trace := (m.trace.modify (i - 1) set).modify i set, isBlank := true }

/-- Takes blanks from the end of the piece that ends at `i`. -/
def stop (m : Trimming) (i : Nat) (e : Event) (text : List Char) (breaks : Bool) : Trimming :=
  let (count, spaces) := blanksBehind text
  let inside := e.mark.inside
  let token : Token :=
    if breaks && spaces && inside = 0 && breakSpaces ≤ count && i + 1 < m.trace.size then
      .hardBreak false
    else .blank
  if count = text.length then m.rename i token
  else if 0 < count || 0 < inside then
    let place := { e.mark.back count with inside := 0 }
    { m with
      edits := m.edits.insert (i + 1)
        [{ Event.enterAt token e with mark := place }, .exitAt token e]
      trace := m.trace.modify i fun e => { e with mark := place } }
  else m

/-- Takes blanks from the start of the piece that ends at `i` and starts at an event. -/
def start (m : Trimming) (i : Nat) (e : Event) (text : List Char) : Trimming :=
  let count := (text.takeWhile isSpace).length
  if count = text.length then m.rename i .blank
  else if 0 < count || 0 < e.mark.inside then
    let place := { e.mark.forward count with inside := 0 }
    { m with
      edits := m.edits.insert (i - 1)
        [.enterAt .blank e, { Event.exitAt .blank e with mark := place }]
      trace := m.trace.modify (i - 1) fun e => { e with mark := place } }
  else m

end Trimming

/-- Takes blanks from the piece that ends at `i`. -/
def trimPiece (source : Source) (breaks whole : Bool) (m : Trimming) (i : Nat) : Trimming :=
  let t := m.trace
  match t[i - 1]?, t[i]? with
  | some first, some last =>
    let isEnding (j : Nat) : Bool := (t[j]?).any (·.token = .lineEnding)
    let text := (source.written first.mark last.mark).toList
    let trimStart := (whole && i = 1) || (1 < i && isEnding (i - 2))
    let trimStop := (whole && i + 1 = t.size) || isEnding (i + 1)
    let m := { m with isBlank := false }
    let m := if trimStop then m.stop i last text breaks else m
    let left := if trimStop then text.take (text.length - (blanksBehind text).1) else text
    if trimStart && !m.isBlank then m.start i first left else m
  | _, _ => m

/-- Takes blanks from the ends of lines; `whole` tells that also those at the ends of the text go, and
`breaks` that spaces can make breaks. -/
def trim (source : Source) (breaks whole : Bool) (t : Trace) : Trace :=
  let pieces := (List.range t.size).filter fun i => (t[i]?).any (·.closes .data)
  let m := pieces.foldl (trimPiece source breaks whole) { trace := t, edits := .none t }
  m.edits.apply m.trace

end Data

end Markdown

end Hypermark
