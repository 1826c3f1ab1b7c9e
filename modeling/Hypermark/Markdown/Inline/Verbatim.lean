import Hypermark.Markdown.Scanner

/-!
# Code and formulas in a text

Code stands between runs of backticks of the same length, and a formula between runs of dollar signs.

* `Scan.inlineVerbatim` reads one or the other.
-/

namespace Hypermark

namespace Markdown

namespace Scan

/-- A run of a mark that is as long as the opening one closes; other runs are part of what is enclosed. -/
def verbatimClose (kind : Verbatim) (mark : Char) : Scan (Turn Unit Unit) := do
  let first ← get
  enter .verbatimRun
  skipWhile (· = mark)
  exit .verbatimRun
  let s ← get
  if s.here - first.here = s.size then
    setSize 0
    exit (.inlineVerbatim kind)
    return .done ()
  else
    modify fun s =>
      match s.events with
      | a :: b :: rest =>
        { s with events :=
            { a with token := .verbatimData } :: { b with token := .verbatimData } :: rest }
      | events => { s with events }
    return .again ()

/-- The kind that a mark encloses. -/
def verbatimKind? (constructs : Constructs) (mark : Char) : Option Verbatim :=
  if mark = '\x60' then some .code
  else if mark = '$' ∧ constructs.mathText then some .math
  else none

/-- A mark may open: it does not stand behind the same mark, unless that one is escaped. -/
def mayOpenVerbatim (s : State) (mark : Char) : Bool :=
  s.previous ≠ some mark ||
    match s.events with
    | e :: _ => e.token = .escape
    | [] => false

/-- Code or a formula.  The register counts the marks in front. -/
def inlineVerbatim : Scan Unit := do
  match ← peek with
  | none => fail
  | some mark =>
    let s ← get
    match verbatimKind? s.setting.constructs mark with
    | none => fail
    | some kind =>
      if !mayOpenVerbatim s mark then fail
      else
        enter (.inlineVerbatim kind)
        enter .verbatimRun
        skipWhile (· = mark)
        modify fun t => { t with size := t.size + (t.here - s.here) }
        if kind = .math && (← get).size = 1 && !s.setting.singleDollar then
          setSize 0
          fail
        else
          exit .verbatimRun
          loop () fun _ => do
            match ← peek with
            | none =>
              setSize 0
              fail
            | some c =>
              if c = '\n' then
                single .lineEnding
                return .again ()
              else if c = mark then verbatimClose kind mark
              else
                enter .verbatimData
                skipWhile (· ≠ mark)
                exit .verbatimData
                return .again ()

end Scan

end Markdown

end Hypermark
