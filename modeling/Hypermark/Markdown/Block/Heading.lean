import Hypermark.Markdown.Edits
import Hypermark.Markdown.Line

/-!
# Headings and breaks

A heading has number signs in front of its text, or a line of equals signs or hyphens under it.  A line of
stars, hyphens or underscores alone is a break.

* `Scan.heading`, `Scan.underline` and `Scan.thematicBreak` read a line.
* `Heading.resolve` and `Underline.resolve` find the texts of headings in a trace.
-/

namespace Hypermark

namespace Markdown

namespace Scan

/-- The least number of marks of a break. -/
def thematicMarks : Nat := 3

/-- The marks and blanks of a break of which `size` marks are read. -/
def thematicRest (mark : Char) (size : Nat) : Scan (Turn Nat Unit) := do
  let c ← peek
  if c = some mark then
    enter .thematicRun
    let first := (← get).here
    skipWhile (· = mark)
    exit .thematicRun
    let behind := (← get).here
    blanks
    return .again (size + (behind - first))
  else if thematicMarks ≤ size && isLineEnd c then
    exit .thematicBreak
    setInterrupt false
    return .done ()
  else fail

/-- A break. -/
def thematicBreak : Scan Unit := do
  enter .thematicBreak
  indent
  match ← peek with
  | some c => if c = '*' || c = '-' || c = '_' then loop 0 (thematicRest c) else fail
  | none => fail

/-- The most number signs of a heading. -/
def headingDepth : Nat := 6

/-- What follows on the signs in front of a heading: words, and runs of signs that may close it. -/
def headingRest : Scan (Turn Unit Unit) := do
  let c ← peek
  if isLineEnd c then
    exit .heading
    setInterrupt false
    return .done ()
  else if isSpaceNext c then
    blanks
    return .again ()
  else if c = some '#' then
    enter .headingRun
    skipWhile (· = '#')
    exit .headingRun
    return .again ()
  else
    enterPending .data .text
    skipWhile (!isSpace ·)
    exit .data
    return .again ()

/-- A heading with signs in front. -/
def heading : Scan Unit := do
  enter .heading
  indent
  if (← peek) ≠ some '#' then fail
  else
    enter .headingRun
    skipUpTo (· = '#') headingDepth
    let c ← peek
    if isLineEnd c || isSpaceNext c then
      exit .headingRun
      loop () fun _ => headingRest
    else fail

/-- Only a line of text or another line under it can have a line under it. -/
def mayUnderline (s : State) : Bool :=
  match Trace.dropParts [.lineEnding, .blank] s.setting.bound s.events with
  | e :: _ => e.token = .content || e.token = .underline
  | [] => false

/-- The line under a heading, which is in the same containers. -/
def underline : Scan Unit := do
  let s ← get
  if s.lazy || s.pierce || !mayUnderline s then fail
  else
    enter .underline
    indent
    match ← peek with
    | some c =>
      if c = '-' || c = '=' then
        enter .underlineRun
        skipWhile (· = c)
        exit .underlineRun
        blanks
        if isLineEnd (← peek) then
          setInterrupt false
          exit .underline
        else fail
      else fail
    | none => fail

end Scan

namespace Heading

/-- The words of a heading that goes on at `i`: the first event of the first and the last event of the
last, and the end of the heading. -/
def words (t : Trace) (found : Option (Nat × Nat)) (i : Nat) : Option (Nat × Nat) × Nat :=
  if h : i < t.size then
    let e := t[i]
    if e.token = .heading then (found, i)
    else if e.token = .data then
      words t (some (match found with
        | some (first, _) => (first, i)
        | none => (i, i))) (i + 1)
    else words t found (i + 1)
  else (found, i)
termination_by t.size - i

/-- Puts the texts of headings into a trace, from `i` on. -/
def addTexts (t : Trace) (edits : Edits) (i : Nat) : Nat → Edits
  | 0 => edits
  | fuel + 1 =>
    match t[i]? with
    | none => edits
    | some e =>
      if e.opens .heading then
        let (found, stop) := words t none (i + 1)
        match found with
        | some (first, last) =>
          match t[first]?, t[last]? with
          | some a, some b =>
            addTexts t
              (((edits.insert first [.enterAt .headingText a]).leaveOut (first + 1)
                (last - first - 1)).insert (last + 1) [.exitAt .headingText b])
              stop fuel
          | _, _ => addTexts t edits stop fuel
        | none => addTexts t edits stop fuel
      else addTexts t edits (i + 1) fuel

/-- Finds the texts of the headings of a trace. -/
def resolve (t : Trace) : Trace := (addTexts t (.none t) 0 (t.size + 1)).apply t

end Heading

namespace Underline

/-- An underlined paragraph is a heading. -/
def addHeading (t : Trace) (edits : Edits) (paragraph stop : Nat) (last : Nat) : Trace × Edits :=
  match t.findBack? [.paragraph] (paragraph - 1), t[stop]? with
  | some first, some e =>
    let rename (e : Event) : Event := { e with token := .underlinedText }
    let edits := match t[first]? with
      | some e => edits.insert first [.enterAt .underlined e]
      | none => edits
    ((t.modify first rename).modify paragraph rename,
      edits.insert last [.exitAt .underlined e])
  | _, _ => (t, edits)

/-- A line under no paragraph starts the one behind it. -/
def joinParagraph (t : Trace) (edits : Edits) (start stop : Nat) (e : Event) : Trace × Edits :=
  let text (f : Event) : Event :=
    { f with token := .data, mark := e.mark, cell := e.cell, pending := some ⟨.text, false⟩ }
  let t := t.modify start fun f => { f with token := .paragraph }
  let t := t.modify (stop + 1) text
  let t := t.modify (stop + 2) fun f => { f with token := .data }
  let t := t.modify (stop + 4) fun f => { f with pending := some ⟨.text, true⟩ }
  (t, (edits.leaveOut (start + 1) (stop - start)).leaveOut (stop + 3) 1)

/-- A line under no paragraph is one if none follows. -/
def addParagraph (t : Trace) (edits : Edits) (start stop : Nat) (e f : Event) : Trace × Edits :=
  let rename (e : Event) : Event := { e with token := .paragraph }
  ((t.modify start rename).modify stop rename,
    edits.replace (start + 1) (stop - start - 1)
      [{ Event.enterAt .data e with pending := some ⟨.text, false⟩ }, .exitAt .data f])

/-- What the line between two events is. -/
def resolveLine (t : Trace) (edits : Edits) (start stop : Nat) (e f : Event) : Trace × Edits :=
  let before := t.skipPartsBack [.blank, .lineEnding, .quotePrefix] (start - 1)
  if 0 < start ∧ (t[before]?).any (·.token = .paragraph) then
    addHeading t edits before stop (stop + 1)
  else if (t[stop + 1]?).any (·.token = .lineEnding) ∧ (t[stop + 3]?).any (·.token = .paragraph) then
    joinParagraph t edits start stop e
  else addParagraph t edits start stop e f

/-- What the lines under paragraphs are, from `i` on. -/
def resolveFrom (t : Trace) (edits : Edits) (i : Nat) : Nat → Trace × Edits
  | 0 => (t, edits)
  | fuel + 1 =>
    let start := t.find [.underline] i
    let stop := t.find [.underline] (start + 1)
    match t[start]?, t[stop]? with
    | some e, some f =>
      let (t, edits) := resolveLine t edits start stop e f
      resolveFrom t edits (stop + 1) fuel
    | _, _ => (t, edits)

/-- Finds the underlined headings of a trace. -/
def resolve (t : Trace) : Trace :=
  let (t, edits) := resolveFrom t (.none t) 0 t.size
  edits.apply t

end Underline

end Markdown

end Hypermark
