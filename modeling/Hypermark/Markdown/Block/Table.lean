import Hypermark.Markdown.Edits
import Hypermark.Markdown.Line
import Hypermark.Mdast.Basic

/-!
# Tables

A table is a row of cells over a line of hyphens, with a group of hyphens for each of its cells and a
colon on every side to which a column is aligned.  Pipes stand between the cells and may stand around
them.

* `Scan.table` reads the first two lines of a table, or a further row.
* `Table.resolve` finds the cells in the rows of a trace.
* `Table.align` are the sides to which the columns of a table are aligned.
-/

namespace Hypermark

namespace Markdown

namespace Scan

/-- Whether something was seen. -/
def setSeen (seen : Bool) : Scan Unit := modify fun s => { s with seen }

/-- The text of a cell up to a blank or a pipe. -/
def cellData : Scan Unit := do
  enter .data
  loop () fun _ => do
    skipWhile fun c => !isSpace c && c ≠ '|' && c ≠ '\\'
    if (← peek) = some '\\' then
      let c ← next
      if c = some '\\' || c = some '|' then eat
      return .again ()
    else return .done ()
  exit .data

/-- What is read of the line of hyphens. -/
inductive DelimiterTurn where
  /-- A group of hyphens, or a pipe in front of one. -/
  | before
  /-- A group of hyphens. -/
  | value
  /-- What follows on a group of hyphens. -/
  | after

/-- The rest of the line of hyphens, which has to have as many groups as there are cells. -/
def delimiters (cells : Nat) : Scan Unit :=
  loop (DelimiterTurn.before, 0) fun (turn, groups) => do
    let c ← peek
    match turn with
    | .before =>
      if c = some '-' || c = some ':' then return .again (.value, groups)
      else if c = some '|' then
        setSeen true
        single .tableDivider
        blanks
        return .again (.value, groups)
      else fail
    | .value =>
      if isLineEnd c then return .again (.after, groups)
      else if c = some '-' || c = some ':' then
        if c = some ':' then
          setSeen true
          single .delimiterMarker
        if (← peek) = some '-' then
          enter .delimiterFiller
          skipWhile (· = '-')
          exit .delimiterFiller
          if (← peek) = some ':' then
            setSeen true
            single .delimiterMarker
          blanks
          return .again (.after, groups + 1)
        else fail
      else fail
    | .after =>
      if isLineEnd c then
        if (← get).seen && groups = cells then return .done () else fail
      else if c = some '|' then return .again (.before, groups)
      else fail

/-- The line of hyphens. -/
def delimiterRow (cells : Nat) : Scan Unit := do
  let _ ← peek
  setInterrupt false
  let s ← get
  if s.lazy || s.pierce then fail
  else
    enter .delimiterRow
    setSeen false
    if ← attempt (do indent; delimiters cells) then
      setSeen false
      exit .delimiterRow
      exit .tableHead
    else
      setSeen false
      fail

/-- The cells of the first row so far, and how much is read of it. -/
structure HeadCount where
  cells : Nat
  width : Nat

/-- The first row, and the line of hyphens.  A pipe alone is no row. -/
def headRow (count : HeadCount) : Scan (Turn HeadCount Unit) := do
  match ← peek with
  | none =>
    setSeen false
    fail
  | some c =>
    if c = '\n' then
      if 1 < count.width then
        setInterrupt true
        exit .tableRow
        lineEnding
        delimiterRow count.cells
        return .done ()
      else
        setSeen false
        fail
    else if isSpace c then
      blanks
      return .again count
    else
      let cells := if (← get).seen then count.cells + 1 else count.cells
      setSeen (c = '|')
      if c = '|' then single .tableDivider else cellData
      return .again ⟨cells, count.width + 1⟩

/-- The start of a table. -/
def tableHead : Scan Unit := do
  enter .tableHead
  enter .tableRow
  indent
  let c ← peek
  if isSpaceNext c then fail
  else if c = some '|' then loop ⟨0, 0⟩ headRow
  else
    setSeen true
    loop ⟨0, 1⟩ headRow

/-- A further row. -/
def tableBody : Scan Unit := do
  if (← get).lazy then fail
  else
    enter .tableRow
    loop () fun _ => do
      blanks
      let c ← peek
      if isLineEnd c then
        exit .tableRow
        return .done ()
      else
        if c = some '|' then single .tableDivider else cellData
        return .again ()

/-- The line before belongs to a table. -/
def isInTable (s : State) : Bool :=
  !s.pierce &&
    match Trace.dropParts [.lineEnding, .blank] s.setting.bound s.events with
    | e :: _ => e.token = .tableHead || e.token = .tableRow
    | [] => false

/-- The start of a table, or a further row. -/
def table : Scan Unit := do
  let s ← get
  if s.setting.constructs.gfmTable then
    if isInTable s then tableBody else tableHead
  else fail

end Scan

namespace Table

/-- A cell of a row: the event in front of which it starts, and the first and last event of its text. -/
structure Cell where
  start : Nat
  text : Option (Nat × Nat) := none
deriving Repr, Inhabited

/-- The events of a row from `i` on: the end of the row, and its cells with the last one first. -/
def cells (t : Trace) (done : List Cell) (cell : Cell) (first : Bool) (i : Nat) :
    Nat × List Cell :=
  if h : i < t.size then
    let e := t[i]
    if e.token = .tableRow then
      (i, if cell.text.isNone && !done.isEmpty then done else cell :: done)
    else if e.opens .tableDivider then
      if first then cells t done cell false (i + 1)
      else cells t (cell :: done) ⟨i, none⟩ false (i + 1)
    else if e.token = .data then
      let text := match cell.text with
        | some (a, _) => (a, i)
        | none => (i, i)
      cells t done { cell with text } false (i + 1)
    else cells t done cell first (i + 1)
  else (i, cell :: done)
termination_by t.size - i

/-- Puts the cells of a row into a trace; the last cell comes first, and ends at `stop`. -/
def addCells (t : Trace) (edits : Edits) (stop : Nat) : List Cell → Edits
  | [] => edits
  | cell :: before =>
    let edits := match t[stop]? with
      | some e => edits.insertFirst stop [.exitAt .tableCell e]
      | none => edits
    let edits := match t[cell.start]? with
      | some e => edits.insert cell.start [.enterAt .tableCell e]
      | none => edits
    let edits := match cell.text with
      | some (a, b) =>
        match t[a]?, t[b]? with
        | some first, some last =>
          (edits.replace a (b - a) [.enterAt .tableCellText first,
            { first with pending := some ⟨.text, false⟩ }]).insertFirst (b + 1)
              [.exitAt .tableCellText last]
        | _, _ => edits
      | none => edits
    addCells t edits cell.start before

/-- Puts the tables and their cells into a trace.  `last` is the end of the last row of the table. -/
def addTables (t : Trace) (edits : Edits) (last : Option Nat) (i : Nat) : Nat → Edits
  | 0 => edits
  | fuel + 1 =>
    match t[i]? with
    | none => close edits last
    | some e =>
      if e.opens .tableHead then
        addTables t ((close edits last).insert i [.enterAt .table e]) none (i + 1) fuel
      else if e.closes .tableHead || e.closes .tableRow then
        addTables t edits (some i) (i + 1) fuel
      else if e.opens .tableRow then
        let (stop, found) := cells t [] ⟨i + 1, none⟩ true (i + 1)
        addTables t (addCells t edits stop found) last stop fuel
      else addTables t edits last (i + 1) fuel
where
  /-- Ends the table behind its last row. -/
  close (edits : Edits) : Option Nat → Edits
    | some last =>
      match t[last]? with
      | some e => edits.insert (last + 1) [.exitAt .table e]
      | none => edits
    | none => edits

/-- Finds the cells of the tables of a trace. -/
def resolve (t : Trace) : Trace := (addTables t (.none t) none 0 (t.size + 1)).apply t

/-- The side to which a column is aligned, by the sides of its hyphens that have a colon. -/
def side : Bool → Bool → Option Mdast.Align
  | true, true => some .center
  | true, false => some .left
  | false, true => some .right
  | false, false => none

/-- The sides to which the columns of a table that starts at an event are aligned. -/
def align (t : Trace) (i : Nat) : List (Option Mdast.Align) :=
  columns t (t.find [.delimiterRow] i + 1)
where
  /-- The columns from `i` on. -/
  columns (t : Trace) (i : Nat) : List (Option Mdast.Align) :=
    if h : i < t.size then
      let e := t[i]
      let isMarker (j : Nat) : Bool := (t[j]?).any (·.token = .delimiterMarker)
      if e.token = .delimiterRow then []
      else if e.opens .delimiterFiller then
        side (isMarker (i - 1)) (isMarker (i + 2)) :: columns t (i + 1)
      else columns t (i + 1)
    else []
  termination_by t.size - i

end Table

end Markdown

end Hypermark
