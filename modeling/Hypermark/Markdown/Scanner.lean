import Hypermark.Markdown.Character
import Hypermark.Markdown.Event
import Hypermark.Markdown.Fault
import Hypermark.Options

/-!
# Scanners

A scanner reads the cells of a document and leaves a trace of what it found.  It is a tree of what is done
next, so it can stop where the part of the document that it was given ends, and go on when it is given
more.  What it tries without success leaves no trace.

* `Scanner.run` runs a scanner as far as it gets.
* `Scan` is the type of the pieces of which scanners are made.
-/

namespace Hypermark

namespace Markdown

/-- What is known before a document, or a part of it, is read. -/
structure Setting where
  constructs : Constructs
  /-- Formulas in a text may stand between single dollar signs. -/
  singleDollar : Bool
  /-- The identifiers of the definitions of the document. -/
  definitions : List String := []
  /-- The identifiers of the footnotes of the document. -/
  footnotes : List String := []
  /-- More steps than any loop over the document makes. -/
  bound : Nat
deriving Repr

/-- An opening bracket that waits for its closing one. -/
structure LabelStart where
  kind : Opening
  /-- It looks like that of a footnote, and there is no such footnote. -/
  undefined : Bool := false
  /-- The number of events before it. -/
  first : Nat
  /-- The number of events up to its end. -/
  behind : Nat
  /-- No link may start here, as one lies behind it. -/
  inactive : Bool := false
deriving Repr, Inhabited

/-- A pair of brackets that is a link, an image or the call of a footnote. -/
structure LabelPair where
  start : LabelStart
  /-- The number of events before the closing bracket. -/
  stop : Nat
  /-- The number of events up to the end of what stands behind it. -/
  behind : Nat
deriving Repr, Inhabited

/-- How far a document is read, and what was found. -/
structure State where
  source : Source
  setting : Setting
  /-- The cell that is next. -/
  here : Nat
  /-- The first cell that is not given yet. -/
  limit : Nat
  /-- No more cells follow on those that are given. -/
  closed : Bool := false
  /-- The character read last. -/
  previous : Option Char := none
  /-- The first cell of the line, marks of containers included. -/
  lineStart : Nat
  /-- The cells where lines start behind the marks of their containers. -/
  skips : List (Nat × Nat) := []
  /-- The trace, the last event first. -/
  events : List Event := []
  /-- The number of events. -/
  count : Nat := 0
  /-- The parts that are open, the innermost first. -/
  stack : List Token := []
  /-- The line lacks marks of its containers. -/
  lazy : Bool := false
  /-- The line has a mark of a new container. -/
  pierce : Bool := false
  /-- What follows would interrupt a paragraph. -/
  interrupt : Bool := false
  /-- No container may start in what is being read. -/
  concrete : Bool := false
  /-- A register: how much was read. -/
  size : Nat := 0
  /-- A register: whether something was seen. -/
  seen : Bool := false
  /-- The columns that the content of an item is indented. -/
  width : Nat := 0
  /-- The mark of an item ended its line. -/
  bare : Bool := false
  /-- A check box may stand here. -/
  mayCheck : Bool := false
  /-- Opening brackets that may still find their closing one, the last one first. -/
  labelStarts : List LabelStart := []
  /-- Opening brackets that have none. -/
  looseStarts : List LabelStart := []
  labels : List LabelPair := []
  definitions : List String := []
  footnotes : List String := []

namespace State

/-- The start of a part of a document. -/
def start (source : Source) (setting : Setting) (cell : Nat) : State :=
  { source, setting, here := cell, limit := cell, lineStart := cell }

/-- The place of the next cell. -/
def mark (s : State) : Mark := s.source.mark s.here

/-- The next character. -/
def current (s : State) : Option Char := if s.here < s.limit then s.source.char? s.here else none

/-- The trace in order. -/
def trace (s : State) : Trace := s.events.toArray.reverse

/-- Adds an event. -/
def push (s : State) (e : Event) : State :=
  { s with events := e :: s.events, count := s.count + 1 }

/-- A part starts. -/
def enter (t : Token) (pending : Option Pending) (s : State) : State :=
  { s.push ⟨true, t, s.mark, s.here, pending⟩ with stack := t :: s.stack }

/-- A part ends.  Behind a line ending it ends where the line starts. -/
def exit (t : Token) (s : State) : State :=
  let cell := if s.previous = some '\n' then s.lineStart else s.here
  { s.push ⟨false, t, s.source.mark cell, cell, none⟩ with stack := s.stack.tail }

/-- Moves on to a cell. -/
def moveTo (cell : Nat) (s : State) : State :=
  if s.here < cell then
    { s with
      here := cell, previous := s.source.char? (cell - 1)
      lineStart := if (s.source.mark cell).line = s.mark.line then s.lineStart else cell }
  else s

/-- Moves on behind the marks of containers at the start of a line. -/
def skipMarks (s : State) : State :=
  let m := s.mark
  if m.column = 1 then
    match s.skips.lookup m.line with
    | some cell => s.moveTo cell
    | none => s
  else s

/-- The marks of containers on the line of a cell end before it. -/
def defineSkip (cell : Nat) (s : State) : State :=
  { s with skips := ((s.source.mark cell).line, cell) :: s.skips }.skipMarks

/-- Reads a character. -/
def consume (s : State) : State :=
  match s.source.char? s.here with
  | some c =>
    if c = '\n' then
      { { s with here := s.here + 1, lineStart := s.here + 1 }.skipMarks with previous := some c }
    else { s with here := s.here + 1, previous := some c }
  | none => s

/-- Leaves no trace of an attempt. -/
def restore (before after : State) : State :=
  { after with
    here := before.here, previous := before.previous, events := before.events
    count := before.count, stack := before.stack }

/-- Reads characters of a class on the line, at most so many. -/
def skipWhile (p : Char → Bool) (s : State) : Nat → State
  | 0 => s
  | most + 1 =>
    match s.current with
    | some c => if p c && c ≠ '\n' then skipWhile p s.consume most else s
    | none => s

end State

/-- What is done next. -/
inductive Scanner where
  /-- It is done. -/
  | accept
  /-- This is something else. -/
  | reject
  /-- The document is malformed. -/
  | raise (fault : Fault)
  /-- It goes on as the next character tells. -/
  | look (next : Option Char → Scanner)
  /-- It goes on as the state tells. -/
  | read (next : State → Scanner)
  | act (f : State → State) (next : Scanner)
  /-- It reads characters of a class on the line, at most so many. -/
  | skip (p : Char → Bool) (most : Nat) (next : Scanner)
  /-- It tries another scanner, and keeps what that one read or not. -/
  | attempt (inner : Scanner) (keep : Bool) (yes no : Scanner)
  /-- It goes on with an attempt made in a state. -/
  | resume (saved : State) (inner : Scanner) (keep : Bool) (yes no : Scanner)

/-- Where a scanner got. -/
inductive Outcome where
  | accepted (s : State)
  | rejected (s : State)
  | raised (fault : Fault)
  /-- It needs cells that are not given yet. -/
  | waiting (s : State) (rest : Scanner)

namespace Scanner

/-- Runs a scanner. -/
def run : Scanner → State → Outcome
  | .accept, s => .accepted s
  | .reject, s => .rejected s
  | .raise fault, _ => .raised fault
  | .look next, s =>
    if s.here < s.limit then (next (s.source.char? s.here)).run s
    else if s.closed then (next none).run s
    else .waiting s (.look next)
  | .read next, s => (next s).run s
  | .act f next, s => next.run (f s)
  | .skip p most next, s =>
    let t := s.skipWhile p most
    if t.here < t.limit || t.closed then next.run t
    else .waiting t (.skip p (most - (t.here - s.here)) next)
  | .attempt inner keep yes no, s =>
    match inner.run s with
    | .accepted t => yes.run (if keep then t else s.restore t)
    | .rejected t => no.run (s.restore t)
    | .raised fault => .raised fault
    | .waiting t rest => .waiting t (.resume s rest keep yes no)
  | .resume saved inner keep yes no, s =>
    match inner.run s with
    | .accepted t => yes.run (if keep then t else saved.restore t)
    | .rejected t => no.run (saved.restore t)
    | .raised fault => .raised fault
    | .waiting t rest => .waiting t (.resume saved rest keep yes no)

/-- Gives a scanner cells up to a limit. -/
def feed (scanner : Scanner) (limit : Nat) (s : State) : Outcome :=
  scanner.run { s with limit, closed := false }

/-- Lets a scanner finish: no more cells follow. -/
def finish (scanner : Scanner) (s : State) : Outcome :=
  scanner.run { s with limit := max s.limit s.here, closed := true }

end Scanner

/-- A piece of a scanner that answers a value. -/
def Scan (α : Type) : Type := (α → Scanner) → Scanner

namespace Scan

instance : Monad Scan where
  pure a := fun k => k a
  bind m f := fun k => m fun a => f a k

/-- The next character. -/
def peek : Scan (Option Char) := fun k => .look k

/-- How far the document is read. -/
def get : Scan State := fun k => .read k

/-- Changes the state. -/
def modify (f : State → State) : Scan Unit := fun k => .act f (k ())

/-- This is something else. -/
def fail {α : Type} : Scan α := fun _ => .reject

/-- The document is malformed. -/
def raise {α : Type} (fault : State → Fault) : Scan α := fun _ => .read fun s => .raise (fault s)

/-- The piece as a scanner. -/
def scanner (m : Scan Unit) : Scanner := m fun _ => .accept

/-- Tries a piece: answers whether it was found. -/
def attempt (m : Scan Unit) : Scan Bool := fun k =>
  .attempt m.scanner true (.look fun _ => k true) (.look fun _ => k false)

/-- Tries a piece and goes back: answers whether it would be found. -/
def check (m : Scan Unit) : Scan Bool := fun k =>
  .attempt m.scanner false (.look fun _ => k true) (.look fun _ => k false)

/-- A part starts. -/
def enter (t : Token) : Scan Unit := modify (State.enter t none)

/-- A part starts whose text is still to be read. -/
def enterPending (t : Token) (grammar : Grammar) (continues : Bool := false) : Scan Unit :=
  modify (State.enter t (some ⟨grammar, continues⟩))

/-- A part ends. -/
def exit (t : Token) : Scan Unit := modify (State.exit t)

/-- Reads a character, and does not look at the next one. -/
def eat : Scan Unit := modify State.consume

/-- Reads a character, and answers the next one. -/
def next : Scan (Option Char) := do
  eat
  peek

/-- Reads the characters of a class that follow on the line, at most so many. -/
def skipUpTo (p : Char → Bool) (most : Nat) : Scan Unit := fun k => .skip p most (k ())

/-- Reads the characters of a class that follow on the line. -/
def skipWhile (p : Char → Bool) : Scan Unit := fun k =>
  .read fun s => .skip p s.setting.bound (k ())

/-- A part of one character. -/
def single (t : Token) : Scan Unit := do
  enter t
  eat
  exit t

/-- How a loop goes on. -/
inductive Turn (σ α : Type) where
  | again (state : σ)
  | done (value : α)

/-- Takes turns, at most so many. -/
def iterate {σ α : Type} (step : σ → Scan (Turn σ α)) : Nat → σ → Scan α
  | 0, _ => fail
  | fuel + 1, state => fun k =>
    step state fun
      | .again state => iterate step fuel state k
      | .done value => k value

/-- Takes turns until one is the last. -/
def loop {σ α : Type} (state : σ) (step : σ → Scan (Turn σ α)) : Scan α := fun k =>
  .read fun s => iterate step s.setting.bound state k

/-- Sets the register. -/
def setSize (size : Nat) : Scan Unit := modify fun s => { s with size }

/-- Adds to the register. -/
def addSize (count : Nat) : Scan Unit := modify fun s => { s with size := s.size + count }

/-- Tries pieces in order: answers whether one was found. -/
def choose : List (Scan Unit) → Scan Bool
  | [] => pure false
  | m :: rest => fun k =>
    .attempt m.scanner true (.look fun _ => k true) (.look fun _ => choose rest k)

end Scan

end Markdown

end Hypermark
