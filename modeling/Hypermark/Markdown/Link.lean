import Hypermark.Markdown.Line

/-!
# The parts of links

A link has a label between brackets, and what it leads to stands behind it in parentheses or in a
definition elsewhere, with a title or without.

* `Scan.label`, `Scan.destination` and `Scan.title` read the parts.
* `Scan.blanksOrEnding` reads what may stand between them.
-/

namespace Hypermark

namespace Markdown

namespace Scan

/-- The pending text of a part of a string: `started` tells that an earlier part holds its start. -/
def stringPart (started : Bool) : Pending := ⟨.string, started⟩

/-- Blanks with at most one line ending among them.  If they are part of a string, `string` tells
whether it has started. -/
def blanksOrEnding (string : Option Bool) : Scan Unit := do
  let part (behind : Bool) : Option Pending := string.map fun started => stringPart (started || behind)
  let blanks (behind : Bool) : Scan Unit := do
    modify (State.enter .blank (part behind))
    skipWhile isSpace
    exit .blank
  let first := isSpaceNext (← peek)
  if first then blanks false
  if (← peek) = some '\n' then
    modify (State.enter .lineEnding (part first))
    eat
    exit .lineEnding
    if isSpaceNext (← peek) then blanks true
  else if !first then fail

/-- The most bytes of a label. -/
def labelLimit : Nat := 999

/-- Text in a label up to a bracket or a line ending; the answer tells whether it has more than
blanks. -/
def labelText (seen : Bool) : Scan Bool := loop seen fun seen => do
  match ← peek with
  | none => return .done seen
  | some c =>
    if c = '\n' || c = '[' || c = ']' || labelLimit < (← get).size then return .done seen
    else
      eat
      addSize c.utf8Size
      if c = '\\' then
        let d ← peek
        if d = some '[' || d = some '\\' || d = some ']' then
          eat
          addSize 1
      return .again (seen || !isSpace c)

/-- A label that starts at its opening bracket; the answer is the text between its brackets. -/
def label (owner : Owner) : Scan String := do
  enter (.label owner)
  single .labelMarker
  enter (.labelString owner)
  let first := (← get).mark
  let found ← loop (false, false) fun (started, seen) => do
    let c ← peek
    if labelLimit < (← get).size || c.isNone || c = some '[' || (c = some ']' && !seen) then
      return .done false
    else if c = some '\n' then
      if ← attempt (blanksOrEnding (some started)) then return .again (true, seen)
      else return .done false
    else if c = some ']' then return .done true
    else
      modify (State.enter .data (some (stringPart started)))
      let seen ← labelText seen
      exit .data
      return .again (true, seen)
  setSize 0
  if found then
    exit (.labelString owner)
    let s ← get
    single .labelMarker
    exit (.label owner)
    return s.source.written first s.mark
  else fail

/-- A character that ends or forbids a destination without angle brackets. -/
def isForbidden (c : Char) : Bool := (isControl c && c ≠ '\x00') || c = ' '

/-- The rest of a destination between angle brackets. -/
def enclosedDestination (owner : Owner) : Scan Unit := do
  if (← peek) ≠ some '>' then
    enter (.destinationString owner)
    enterPending .data .string
    loop () fun _ => do
      skipWhile fun c => c ≠ '<' && c ≠ '>' && c ≠ '\\'
      let c ← peek
      if c = some '>' then return .done ()
      else if c = some '\\' then
        let d ← next
        if d = some '<' || d = some '>' || d = some '\\' then eat
        return .again ()
      else fail
    exit .data
    exit (.destinationString owner)
  single .destinationMarker
  exit .destination

/-- The text of a destination without angle brackets, in which parentheses are at most so deep.  How deep
they are is held in the register. -/
def bareDestination (most : Option Nat) : Scan Unit := loop () fun _ => do
  let c ← peek
  let depth := (← get).size
  if depth = 0 && c.all fun c => isSpaceOrEnding c || c = ')' then return .done ()
  else
    match c with
    | none =>
      setSize 0
      fail
    | some c =>
      if c = '(' && most.all (depth < ·) then
        eat
        setSize (depth + 1)
        return .again ()
      else if isForbidden c || c = '(' then
        setSize 0
        fail
      else
        eat
        if c = ')' then setSize (depth - 1)
        else if c = '\\' then
          let d ← peek
          if d = some '(' || d = some ')' || d = some '\\' then eat
        return .again ()

/-- A destination. -/
def destination (owner : Owner) (most : Option Nat) : Scan Unit := do
  match ← peek with
  | none => fail
  | some c =>
    if c = '<' then
      enter .destination
      single .destinationMarker
      enclosedDestination owner
    else if isForbidden c || c = ')' then fail
    else
      enter .destination
      enter (.destinationString owner)
      enterPending .data .string
      bareDestination most
      exit .data
      exit (.destinationString owner)
      exit .destination

/-- The mark that closes a title opened by a character. -/
def titleMark? (c : Char) : Option Char :=
  if c = '"' || c = '\'' then some c else if c = '(' then some ')' else none

/-- Text in a title up to its mark or a line ending. -/
def titleText (mark : Char) : Scan Unit := do
  skipWhile fun c => c ≠ mark && c ≠ '\\'
  loop () fun _ => do
    if (← peek) = some '\\' then
      let d ← next
      if d.any fun d => d = '"' || d = '\'' || d = ')' || d = '\\' then eat
      skipWhile fun c => c ≠ mark && c ≠ '\\'
      return .again ()
    else return .done ()

/-- A title. -/
def title (owner : Owner) : Scan Unit := do
  match (← peek).bind titleMark? with
  | none => fail
  | some mark =>
    enter .title
    single .titleMarker
    if (← peek) ≠ some mark then
      enter (.titleString owner)
      loop false fun started => do
        match ← peek with
        | none => fail
        | some c =>
          if c = mark then return .done ()
          else if c = '\n' then
            blanksOrEnding (some started)
            return .again true
          else
            modify (State.enter .data (some (stringPart started)))
            titleText mark
            exit .data
            return .again true
      exit (.titleString owner)
    single .titleMarker
    exit .title

end Scan

end Markdown

end Hypermark
