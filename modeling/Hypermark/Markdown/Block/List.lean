import Hypermark.Markdown.Edits

/-!
# Lists

Items with the same mark that stand next to each other make up a list.

* `ListRun.resolve` finds the lists of a trace.
-/

namespace Hypermark

namespace Markdown

/-- Items in a row: their mark, how deep in other items they are, and the events where the first starts
and the last ends. -/
structure ListRun where
  mark : Char
  depth : Nat
  first : Nat
  last : Nat
deriving Repr, Inhabited

namespace ListRun

/-- What may stand between two items of a list. -/
def between : List Token := [.blank, .lineEnding, .blankLine, .quotePrefix]

/-- An item that starts at an event goes on with a list. -/
def goesOn (t : Trace) (run item : ListRun) : Bool :=
  run.mark = item.mark && run.depth = item.depth
    && t.skipParts between (run.last + 1) = item.first

/-- The lists in the making, the last one first, and the finished ones, also the last one first. -/
structure Runs where
  open_ : List ListRun := []
  done : List ListRun := []

namespace Runs

/-- Finishes lists, of which the last comes first. -/
def finish (runs : Runs) (closed open_ : List ListRun) : Runs := ⟨open_, closed ++ runs.done⟩

/-- Adds an item: it goes on with a list, or starts one, and then what ended before it is finished. -/
def add (t : Trace) (runs : Runs) (item : ListRun) : Runs :=
  match runs.open_.span fun run => !goesOn t run item with
  | (newer, run :: older) => runs.finish newer ({ run with last := item.last } :: older)
  | (_, []) =>
    let (ended, rest) := runs.open_.span fun run => run.last < item.first
    runs.finish ended (item :: rest)

end Runs

/-- The item that starts at an event. -/
def ofItem (source : Source) (t : Trace) (depth i : Nat) : ListRun :=
  let mark := ((t[t.find [.itemMarker] i]?).bind fun e => source.after? e.mark).getD '-'
  ⟨mark, depth, i, t.skipParts [.item] i - 1⟩

/-- The lists of a trace from `i` on, `depth` items deep. -/
def collect (source : Source) (t : Trace) (runs : Runs) (depth i : Nat) : Runs :=
  if h : i < t.size then
    let e := t[i]
    if e.opens .item then
      collect source t (runs.add t (ofItem source t depth i)) (depth + 1) (i + 1)
    else if e.closes .item then collect source t runs (depth - 1) (i + 1)
    else collect source t runs depth (i + 1)
  else runs.finish runs.open_ []
termination_by t.size - i

/-- The list is numbered. -/
def isOrdered (run : ListRun) : Bool := run.mark = '.' || run.mark = ')'

/-- Puts lists into a trace. -/
def addTo (t : Trace) (edits : Edits) (run : ListRun) : Edits :=
  match t[run.first]?, t[run.last]? with
  | some a, some b =>
    (edits.insert run.first [.enterAt (.list run.isOrdered) a]).insert (run.last + 1)
      [.exitAt (.list run.isOrdered) b]
  | _, _ => edits

/-- Finds the lists of a trace. -/
def resolve (source : Source) (t : Trace) : Trace :=
  let runs := collect source t {} 0 0
  (runs.done.reverse.foldl (addTo t) (.none t)).apply t

end ListRun

end Markdown

end Hypermark
