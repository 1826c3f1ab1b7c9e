import Hypermark.Markdown.Edits
import Hypermark.Markdown.Scanner

/-!
# Emphasis

Runs of stars, underscores and tildes open and close emphasis, strong emphasis and deletions.  Which of
both a run can do depends on the characters around it, and which runs belong together shows when all of
them are known.

* `Scan.run` reads a run.
* `Run.resolve` finds out which runs of a trace belong together.
-/

namespace Hypermark

namespace Markdown

namespace Scan

/-- A run. -/
def run : Scan Unit := do
  match ← peek with
  | none => fail
  | some mark =>
    if mark = '~' && !(← get).setting.constructs.gfmStrikethrough then fail
    else
      enter .run
      skipWhile (· = mark)
      exit .run

end Scan

/-- A run of marks, of which some may be used up. -/
structure Run where
  mark : Char
  /-- The event where it starts. -/
  index : Nat
  /-- The event where the part around it starts. -/
  parent : Option Nat
  start : Mark
  stop : Mark
  size : Nat
  opens : Bool
  closes : Bool
deriving Repr, Inhabited

namespace Run

/-- Another mark, next to which a run of stars or underscores may stand; `tildes` tells that tildes are
marks. -/
def isMarkBeside (tildes : Bool) (mark : Char) (c : Option Char) : Bool :=
  mark ≠ '~' && (c = some '*' || c = some '_' || (tildes && c = some '~'))

/-- A run between two characters. -/
def between (tildes : Bool) (mark : Char) (index : Nat) (parent : Option Nat) (start stop : Mark)
    (previous next : Option Char) : Run :=
  let before := Kind.of previous
  let after := Kind.of next
  let opens := after = .other || (after = .punctuation && before ≠ .other)
    || isMarkBeside tildes mark next
  let closes := before = .other || (before = .punctuation && after ≠ .other)
    || isMarkBeside tildes mark previous
  { mark, index, parent, start, stop, size := stop.offset - start.offset
    opens := if mark = '_' then opens && (before ≠ .other || !closes) else opens
    closes := if mark = '_' then closes && (after ≠ .other || !opens) else closes }

/-- The runs of a trace from `i` on; `open_` are the events where the parts around start. -/
def collect (tildes : Bool) (source : Source) (t : Trace) (open_ : List Nat) (i : Nat) : List Run :=
  if h : i < t.size then
    let e := t[i]
    if e.token = .run then
      if e.enters then
        let stop := ((t[i + 1]?).map Event.mark).getD e.mark
        between tildes ((source.after? e.mark).getD '*') i open_.head? e.mark stop
          (source.before? e.mark) (source.after? stop)
          :: collect tildes source t open_ (i + 1)
      else collect tildes source t open_ (i + 1)
    else if e.enters then collect tildes source t (i :: open_) (i + 1)
    else collect tildes source t open_.tail (i + 1)
  else []
termination_by t.size - i

/-- A run that can open belongs to one that can close: they are alike, and if one of them can do both, the
sum of their sizes is no multiple of three unless both are.  Deletions have one or two marks on each
side. -/
def belongs (opener closer : Run) : Bool :=
  opener.opens && opener.mark = closer.mark && opener.parent = closer.parent
    && !((opener.closes || closer.opens) && closer.size % 3 ≠ 0
      && (opener.size + closer.size) % 3 = 0)
    && !(closer.mark = '~' && (closer.size ≠ opener.size || 2 < closer.size))

/-- The parts of which a mark and a number of marks on each side are the ends: the part, and its marks. -/
def tokens (mark : Char) (count : Nat) : Token × Token :=
  if mark = '~' then (.strikethrough, .strikethroughRun)
  else if count = 1 then (.emphasis, .emphasisRun)
  else (.strong, .strongRun)

/-- A place without a cell. -/
def eventAt (enters : Bool) (token : Token) (mark : Mark) : Event := ⟨enters, token, mark, 0, none⟩

/-- Runs in the making: the trace with the places of what is left of runs, and changes. -/
structure Matching where
  trace : Trace
  edits : Edits

namespace Matching

/-- Puts the ends of a part into the trace: it takes some marks from the end of the opener and the start of
the closer. -/
def join (m : Matching) (opener closer : Run) (count : Nat) : Matching :=
  let (part, marks) := tokens opener.mark count
  let inner := opener.stop
  let outer := inner.back count
  let closing := closer.start
  let behind := closing.forward count
  let edits := m.edits.insertFirst (opener.index + 2)
    [eventAt true part outer, eventAt true marks outer, eventAt false marks inner]
  let edits := edits.insert closer.index
    [eventAt true marks closing, eventAt false marks behind, eventAt false part behind]
  { m with edits }

/-- What is left of a run: if it is used up, its events are left out. -/
def trim (m : Matching) (run : Run) : Matching :=
  if run.size = 0 then { m with edits := m.edits.leaveOut run.index 2 }
  else
    let place (mark : Mark) (e : Event) : Event := { e with mark }
    { m with trace :=
        (m.trace.modify run.index (place run.start)).modify (run.index + 1) (place run.stop) }

end Matching

/-- Matches runs.  `before` are runs that may still open, the last one first, and `closed` those that
may not: they are only kept to become text. -/
def matchRuns (m : Matching) (before : List Run) : List Run → Nat → Matching × List Run
  | [], _ => (m, before)
  | rest, 0 => (m, before ++ rest)
  | run :: rest, fuel + 1 =>
    match if run.closes then before.span fun opener => !belongs opener run else (before, []) with
    | (_, []) => matchRuns m (run :: before) rest fuel
    | (inside, opener :: older) =>
      let count := if 1 < opener.size ∧ 1 < run.size then 2 else 1
      let m := m.join opener run count
      let opener' := { opener with size := opener.size - count, stop := opener.stop.back count }
      let run' := { run with size := run.size - count, start := run.start.forward count }
      let m := (m.trim run').trim opener'
      let older := if opener'.size = 0 then older else opener' :: older
      let before := inside.map (fun r => { r with opens := false }) ++ older
      matchRuns m before (if run'.size = 0 then rest else run' :: rest) fuel

/-- Finds out which runs of a trace belong together; what is left of runs is text.  `tildes` tells that
tildes are marks. -/
def resolve (tildes : Bool) (source : Source) (t : Trace) : Trace :=
  let runs := collect tildes source t [] 0
  if runs.isEmpty then t
  else
    let fuel := runs.foldl (fun n run => n + run.size + 1) 0
    let (m, left) := matchRuns ⟨t, .none t⟩ [] runs fuel
    let text (e : Event) : Event := { e with token := .data }
    let t := left.foldl (fun t run => (t.modify run.index text).modify (run.index + 1) text) m.trace
    m.edits.apply t

end Run

end Markdown

end Hypermark
