import Hypermark.Markdown.Edits
import Hypermark.Markdown.Scanner

/-!
# Reading what is pending

A part whose text is still to be read takes the place of its two events with the trace of that text.  Such a
text may lie in several parts, one behind the other; then its trace is divided between them.

* `Trace.splice` divides a trace between pending parts.
* `Trace.expand` reads pending parts with the scanner of their grammar.
-/

namespace Hypermark

namespace Markdown

namespace Trace

/-- The pending parts that go on with the text of an earlier one, from `i` on. -/
def continuations (t : Trace) (i : Nat) : List Nat :=
  if h : i < t.size then
    match t[i].pending with
    | some p => if p.continues then i :: continuations t (i + 1) else []
    | none => continuations t (i + 1)
  else []
termination_by t.size - i

/-- The end of a pending part. -/
def stop (t : Trace) (i : Nat) : Mark := ((t[i + 1]?).map Event.mark).getD Mark.origin

/-- Puts a part of another trace in the place of a pending part, if there is any. -/
def fill (edits : Edits) (i : Nat) (events : List Event) : Edits :=
  if events.isEmpty then edits else edits.replace i 2 events.reverse

/-- Divides events between pending parts: an event behind the end of a part belongs to the next one.
`done` are the events of the part so far, the last one first. -/
def divide (t : Trace) (edits : Edits) (part : Nat) (done : List Event) :
    List Nat → List Event → Edits
  | _, [] => fill edits part done
  | rest, e :: events =>
    match rest with
    | next :: rest' =>
      if (t.stop part).isBefore e.mark then
        divide t (fill edits part done) next [e] rest' events
      else divide t edits part (e :: done) rest events
    | [] => divide t edits part (e :: done) rest events
termination_by _ events => events.length

/-- Divides the trace of a text between its pending parts. -/
def splice (t : Trace) (edits : Edits) (parts : List Nat) (child : Trace) : Edits :=
  match parts with
  | part :: rest => divide t edits part [] rest child.toList
  | [] => edits

end Trace

/-- What the texts of a document brought to light. -/
structure Findings where
  definitions : List String := []
  /-- Some text was read. -/
  any : Bool := false
deriving Inhabited

/-- How the texts of a grammar are read: by a scanner, and by passes over its trace. -/
structure Reading where
  scanner : Scanner
  resolve : State → Trace

namespace Trace

/-- Gives a scanner the parts of a text one after the other, and ends it. -/
def readParts (t : Trace) (scanner : Scanner) (s : State) : List Nat → Outcome
  | [] => scanner.finish s
  | part :: rest =>
    let cell := ((t[part]?).map Event.cell).getD 0
    let stop := ((t[part + 1]?).map Event.cell).getD 0
    let s := if (t[part]?).any fun e => e.pending.any Pending.continues then s.defineSkip cell else s
    match scanner.feed stop (s.moveTo cell) with
    | .waiting s scanner => readParts t scanner s rest
    | outcome => outcome

/-- Reads the text that starts in a part. -/
def readText (t : Trace) (reading : Reading) (s : State) (parts : List Nat) :
    Except Fault (Trace × State) :=
  match t.readParts reading.scanner s parts with
  | .accepted s => .ok (reading.resolve s, s)
  | .rejected s => .ok (reading.resolve s, s)
  | .waiting s _ => .ok (reading.resolve s, s)
  | .raised fault => .error fault

/-- Reads the pending parts from `i` on whose grammar has a reading; `start` is the state in which the
text of a part starts. -/
def expandFrom (t : Trace) (readingOf : Grammar → Option Reading) (start : Nat → Event → State)
    (edits : Edits) (findings : Findings) (i : Nat) : Except Fault (Edits × Findings) :=
  if h : i < t.size then
    match t[i].pending with
    | some p =>
      match if p.continues then none else readingOf p.grammar with
      | some reading =>
        let parts := i :: t.continuations (i + 1)
        match t.readText reading (start i t[i]) parts with
        | .ok (child, s) =>
          expandFrom t readingOf start (t.splice edits parts child)
            ⟨s.definitions ++ findings.definitions, true⟩ (i + 1)
        | .error fault => .error fault
      | none => expandFrom t readingOf start edits findings (i + 1)
    | none => expandFrom t readingOf start edits findings (i + 1)
  else .ok (edits, findings)
termination_by t.size - i

/-- Reads the pending parts whose grammar has a reading. -/
def expand (t : Trace) (readingOf : Grammar → Option Reading) (start : Nat → Event → State) :
    Except Fault (Trace × Findings) := do
  let (edits, findings) ← t.expandFrom readingOf start (.none t) {} 0
  return (edits.apply t, findings)

end Trace

end Markdown

end Hypermark
