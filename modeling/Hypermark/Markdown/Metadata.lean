import Hypermark.Markdown.Line

/-!
# Metadata

A document may start with metadata between fences: of hyphens if it is written in YAML, and of plus signs
if it is written in TOML.

* `Scan.metadata` reads metadata.
-/

namespace Hypermark

namespace Markdown

/-- The number of marks of a fence around metadata. -/
def metadataMarks : Nat := 3

namespace Scan

/-- A fence around metadata. -/
def metadataFence (mark : Char) : Scan Unit := do
  enter .metadataFence
  enter .metadataRun
  let first := (← get).here
  skipWhile (· = mark)
  let behind := (← get).here
  if behind - first = metadataMarks then
    exit .metadataRun
    blanks
    if isLineEnd (← peek) then exit .metadataFence else fail
  else fail

/-- The closing fence around metadata. -/
def metadataEnd (mark : Char) : Scan Unit := do
  if (← peek) = some mark then metadataFence mark else fail

/-- The opening fence around metadata, and the line ending behind it. -/
def metadataStart (mark : Char) : Scan Unit := do
  metadataFence mark
  if (← peek) = some '\n' then lineEnding else fail

/-- Metadata. -/
def metadata : Scan Unit := do
  match ← peek with
  | some mark =>
    if mark = '-' || mark = '+' then
      enter .metadata
      metadataStart mark
      loop () fun _ => do
        if ← attempt (metadataEnd mark) then return .done ()
        else
          if !isLineEnd (← peek) then
            enter .metadataLine
            skipWhile fun _ => true
            exit .metadataLine
          if (← peek).isSome then
            lineEnding
            return .again ()
          else fail
      exit .metadata
    else fail
  | none => fail

end Scan

end Markdown

end Hypermark
