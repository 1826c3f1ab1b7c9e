import Hypermark.Markdown.Event

/-!
# Changes of a trace

What a trace means often shows only behind it.  Passes over a trace collect events that are to be put in
and left out, and make all these changes at once, so that the numbers of events hold during the pass.

* `Edits.apply` makes the changes.
-/

namespace Hypermark

namespace Markdown

/-- What changes in front of an event: events that are put in, and how many are left out behind them. -/
structure Edit where
  insert : Array Event := #[]
  leaveOut : Nat := 0
deriving Repr, Inhabited

/-- The changes of a trace, by the number of the event. -/
structure Edits where
  edits : Array Edit
deriving Repr, Inhabited

namespace Edits

/-- No changes of a trace. -/
def none (t : Trace) : Edits := ⟨(List.replicate (t.size + 1) {}).toArray⟩

/-- Puts events in front of an event, behind those put there before. -/
def insert (e : Edits) (i : Nat) (events : List Event) : Edits :=
  ⟨e.edits.modify i fun edit => { edit with insert := edit.insert ++ events }⟩

/-- Puts events in front of an event, before those put there before. -/
def insertFirst (e : Edits) (i : Nat) (events : List Event) : Edits :=
  ⟨e.edits.modify i fun edit => { edit with insert := events.toArray ++ edit.insert }⟩

/-- Leaves out events from one on. -/
def leaveOut (e : Edits) (i count : Nat) : Edits :=
  ⟨e.edits.modify i fun edit => { edit with leaveOut := edit.leaveOut + count }⟩

/-- Puts other events in the place of some. -/
def replace (e : Edits) (i count : Nat) (events : List Event) : Edits :=
  (e.insert i events).leaveOut i count

/-- The changed events from `i` on, of which the first `gone` are left out, behind those made before. -/
def applyFrom (e : Edits) (t : Trace) (done : Array Event) (gone i : Nat) : Trace :=
  if h : i < t.size then
    let edit := e.edits[i]?.getD {}
    let done := done ++ edit.insert
    let gone := gone + edit.leaveOut
    if gone = 0 then applyFrom e t (done.push t[i]) 0 (i + 1)
    else applyFrom e t done (gone - 1) (i + 1)
  else done ++ (e.edits[i]?.getD {}).insert
termination_by t.size - i

/-- The changed trace. -/
def apply (e : Edits) (t : Trace) : Trace := e.applyFrom t #[] 0 0

end Edits

end Markdown

end Hypermark
