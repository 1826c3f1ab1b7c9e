import Hypermark.Markdown.Block.Container
import Hypermark.Markdown.Block.Flow
import Hypermark.Markdown.Metadata
import Hypermark.Markdown.Splice

/-!
# Documents

A document is read line by line.  First come the marks of the containers that are open, then marks of new
ones, and the rest of the line belongs to the blocks inside.  A line that lacks marks may still go on with
a paragraph inside.

* `Document.trace?` is the trace of a document, in which what lines up to paragraphs and definitions is
  still pending.
-/

namespace Hypermark

namespace Markdown

/-- How far a document is read. -/
structure Document where
  /-- The marks of containers. -/
  outer : State
  /-- The blocks in them. -/
  inner : State
  /-- How the blocks go on. -/
  scanner : Scanner
  /-- The containers that are open, the outermost first. -/
  stack : List Container := []
  /-- How many of them go on on this line. -/
  continued : Nat := 0
  /-- The containers that end on a line, the innermost first, for each line. -/
  ends : Array (List Token) := #[]
  /-- The line before may be gone on with on a line that lacks marks. -/
  wasOpen : Bool := false

namespace Document

/-- Blocks from the start. -/
def flowScanner : Scanner := Scan.flow.scanner

/-- Tries a piece on the marks of containers: answers whether it was found. -/
def attempt (m : Scan Unit) (s : State) : Except Fault (Bool × State) :=
  match m.scanner.run s with
  | .accepted t => .ok (true, t)
  | .rejected t => .ok (false, s.restore t)
  | .waiting t _ => .ok (false, s.restore t)
  | .raised fault => .error fault

/-- Where the blocks got. -/
def advance (d : Document) : Outcome → Except Fault Document
  | .accepted s => .ok { d with inner := s, scanner := flowScanner }
  | .rejected s => .ok { d with inner := s, scanner := flowScanner }
  | .waiting s rest => .ok { d with inner := s, scanner := rest }
  | .raised fault => .error fault

/-- Lets the blocks finish. -/
def flush (d : Document) : Except Fault Document := d.advance (d.scanner.finish d.inner)

/-- Ends the containers that do not go on, on a line that is so many lines back. -/
def endContainers (d : Document) (back : Nat) : Document :=
  let closed := (d.stack.drop d.continued).reverse.map Container.token
  { d with
    stack := d.stack.take d.continued
    ends := d.ends.modify (d.ends.size - back) (· ++ closed)
    inner := { d.inner with interrupt := false } }

/-- Looks for the marks of the containers that are open; `stack` are those still to come. -/
def continueContainers (d : Document) : List Container → Except Fault Document
  | [] => .ok d
  | c :: rest => do
    let (found, outer) ← attempt (Scan.continueContainer c) { d.outer with bare := true }
    let stack := d.stack.set d.continued (Scan.continuedContainer outer c)
    let d := { d with outer, stack }
    if found then continueContainers { d with continued := d.continued + 1 } rest else return d

/-- Looks for the mark of a new container. -/
def newContainer? (s : State) :
    List (Scan Unit × (State → Container)) → Except Fault (Option Container × State)
  | [] => .ok (none, s)
  | (m, container) :: rest => do
    let (found, t) ← attempt m s
    if found then return (some (container t), t) else newContainer? t rest

/-- Looks for the marks of new containers.  None starts in what no container may start in. -/
def openContainers (d : Document) : Nat → Except Fault Document
  | 0 => .ok d
  | fuel + 1 => do
    let all := d.continued = d.stack.length
    let d := if all then { d with outer := { d.outer with interrupt := d.inner.interrupt } } else d
    if all ∧ d.inner.concrete then return d
    else
      let (container, outer) ← newContainer? d.outer Scan.newContainers
      let d := { d with outer }
      match container with
      | none => return d
      | some container =>
        let d ← if d.continued < d.stack.length then (·.endContainers 1) <$> d.flush else pure d
        openContainers
          { d with
            stack := d.stack ++ [container]
            continued := d.continued + 1
            outer := { d.outer with interrupt := false }
            inner := { d.inner with pierce := true } }
          fuel

/-- The rest of the line, its line ending included, as a pending part. -/
def restOfLine (s : State) : State :=
  let s := s.enter .data (some ⟨.flow, s.events.any fun e => e.pending.isSome⟩)
  let s := s.skipWhile (fun _ => true) s.setting.bound
  s.consume.exit .data

/-- Gives the rest of the line to the blocks. -/
def feedLine (d : Document) : Except Fault Document := do
  let inner := { d.inner with lazy := d.continued ≠ d.stack.length }.defineSkip d.outer.here
  let outer := if d.outer.current.isSome then restOfLine d.outer else d.outer
  let d := { d with outer, ends := d.ends.push [] }
  d.advance (d.scanner.feed outer.here inner)

/-- The block that is being read may be gone on with on a line that lacks marks. -/
def isOpen (s : State) : Bool :=
  s.stack.any (fun t => t = .content || t = .tableHead) ||
    match Trace.dropParts [.lineEnding] s.setting.bound s.events with
    | e :: _ => e.token = .content || e.token = .underline
    | [] => false

/-- Reads a line. -/
def line (d : Document) : Except Fault Document := do
  let d ← { d with continued := 0 }.continueContainers d.stack
  let d ← d.openContainers d.outer.setting.bound
  let d ← d.feedLine
  let open? := isOpen d.inner
  let d := { d with inner := { d.inner with pierce := false } }
  let d :=
    if d.inner.lazy && d.wasOpen && open? then { d with continued := d.stack.length } else d
  let d := if d.continued = d.stack.length then d else d.endContainers 2
  return { d with wasOpen := open?, outer := { d.outer with interrupt := false } }

/-- Reads lines up to the end of the document. -/
def lines (d : Document) : Nat → Except Fault Document
  | 0 => .ok d
  | fuel + 1 => do
    let d ← d.line
    if d.outer.current.isSome then lines d fuel
    else
      let d ← d.flush
      return { d with continued := 0 }.endContainers 1

/-- Puts the ends of containers into the trace of the blocks: they end in front of the line ending of their
last line, or behind what ends behind that.  `line` is the number of the line. -/
def addEnds (t : Trace) (ends : Array (List Token)) (edits : Edits) (line i : Nat) : Edits × Nat :=
  if h : i < t.size then
    let e := t[i]
    if !e.enters && (e.token = .lineEnding || e.token = .blankLine) then
      let behind := closing t (i + 1)
      let (at?, place) := if behind = i + 1 then (i - 1, t[i - 1]?) else (behind, t[behind - 1]?)
      let edits := match place with
        | some p => edits.insert at? ((ends[line]?.getD []).map (Event.exitAt · p))
        | none => edits
      addEnds t ends edits (line + 1) (max (i + 1) behind)
    else addEnds t ends edits line (i + 1)
  else (edits, line)
termination_by t.size - i
where
  /-- The place behind events that end parts. -/
  closing (t : Trace) (i : Nat) : Nat :=
    if h : i < t.size then if t[i].enters then i else closing t (i + 1) else i
  termination_by t.size - i

/-- The trace of the marks of containers and of the blocks in them. -/
def trace (d : Document) : Trace :=
  let blocks := d.inner.trace
  let (edits, line) := addEnds blocks d.ends (.none blocks) 0 0
  let marks := d.outer.trace
  let parts := (List.range marks.size).filter fun i => (marks[i]?).any fun e => e.pending.any
    fun p => p.grammar = .flow
  let place : Event := ⟨false, .data, d.outer.mark, d.outer.here, none⟩
  let behind := (d.ends.toList.drop line).flatten.map (Event.exitAt · place)
  (marks.splice (.none marks) parts (edits.apply blocks)).apply marks ++ behind.toArray

/-- The byte order mark, which may stand before a document. -/
def byteOrderMark : Scan Unit := do
  if (← Scan.peek) = some '\ufeff' then Scan.single .byteOrderMark else Scan.fail

/-- The opening fence of metadata. -/
def metadataStart : Scan Unit := do
  match ← Scan.peek with
  | some mark => if mark = '-' || mark = '+' then Scan.metadataStart mark else Scan.fail
  | none => Scan.fail

/-- Reads what may stand before the blocks of a document; the answer is the cell where they start.  If
metadata are opened and not closed, all lines but the last are one line of blocks. -/
def readFront (s : State) : Except Fault (Nat × State) := do
  let (_, s) ← attempt byteOrderMark s
  if s.setting.constructs.frontmatter then
    let (found, t) ← attempt Scan.metadata s
    if found then return (t.here, t)
    else
      let (opened, _) ← attempt metadataStart s
      return (0, if opened then { s with skips := [(2, s.source.lastLine)] } else s)
  else return (0, s)

/-- The trace of a document, and the identifiers of its footnotes. -/
def trace? (source : Source) (setting : Setting) : Except Fault (Trace × List String) := do
  let (first, s) ← readFront
    { State.start source setting 0 with limit := source.size, closed := true }
  let inner := State.start source setting first
  let d ← lines { outer := s, inner, scanner := flowScanner } setting.bound
  return (d.trace, d.outer.footnotes)

end Document

end Markdown

end Hypermark
