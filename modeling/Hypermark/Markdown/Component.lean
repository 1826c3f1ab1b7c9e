import Hypermark.Markdown.Line
import Hypermark.Text.Name

/-!
# Tags and expressions

Where a document mixes its text with components, tags take the place of raw HTML and expressions stand
between braces.

* `Scan.expression` and `Scan.tag` read an expression and a tag.
* `Scan.expressionFlow` and `Scan.tagFlow` read them on lines of their own.
-/

namespace Hypermark

namespace Markdown

namespace Scan

/-- On a line of its own, what goes on on a line without the marks of its containers is malformed. -/
def refuseLazy (level : Level) (name : String) : Scan Unit := do
  let _ ← peek
  let s ← get
  if level = .flow && s.lazy then raise fun s => .lazyLine name s.mark.point

/-- An expression as a part of some kind.  The register holds how many braces are open inside it. -/
def expression (token : Token) (level : Level) : Scan Unit := do
  enter token
  single .expressionMarker
  loop () fun _ => do
    match ← peek with
    | none => raise fun s => .unclosedExpression s.mark.point
    | some c =>
      if c = '\n' then
        lineEnding
        refuseLazy level "expression"
        blanks
        return .again ()
      else if c = '\x7d' && (← get).size = 0 then return .done ()
      else
        enter .expressionData
        loop () fun _ => do
          skipWhile fun c => c ≠ '\x7b' && c ≠ '\x7d'
          match ← peek with
          | none => return .done ()
          | some c =>
            let size := (← get).size
            if c = '\n' || (c = '\x7d' && size = 0) then return .done ()
            else
              setSize (if c = '\x7b' then size + 1 else size - 1)
              eat
              return .again ()
        exit .expressionData
        return .again ()
  single .expressionMarker
  exit token

/-- A blank between the parts of a tag. -/
def isTagBlank (c : Char) : Bool := Text.isBlank c || c = '\ufeff'

/-- Blanks and line endings between the parts of a tag. -/
def tagBlanks (level : Level) : Scan Unit := loop () fun _ => do
  match ← peek with
  | none => return .done ()
  | some c =>
    if c = '\n' then
      lineEnding
      refuseLazy level "jsx"
      return .again ()
    else if isTagBlank c then
      enter .blank
      skipWhile isTagBlank
      exit .blank
      return .again ()
    else return .done ()

/-- A character that can start a name in a tag. -/
def startsName (c : Char) : Bool := Text.isNameStart c || c = '$' || c = '_'

/-- A character of a name in a tag. -/
def isNamePart (c : Char) : Bool :=
  Text.isName c || c = '$' || c = '-' || c = '\u200c' || c = '\u200d'

/-- A word of a name as a part of some kind. -/
def nameWord (token : Token) : Scan Unit := do
  if (← peek).any startsName then
    enter token
    eat
    skipWhile isNamePart
    exit token
  else fail

/-- What may stand behind the name of a tag or of an attribute. -/
def mayFollowName (c : Char) : Bool := c = '/' || c = '>' || c = '\x7b' || startsName c

/-- What may touch the name of a tag or of an attribute. -/
def mayTouchName (c : Char) : Bool :=
  c = '/' || c = '>' || c = '\x7b' || c = '\n' || isTagBlank c

/-- The next character is of a class. -/
def expect (p : Char → Bool) : Scan Unit := do
  if !(← peek).any p then fail

/-- The name of a tag. -/
def tagName (level : Level) : Scan Unit := do
  enter .tagName
  nameWord .tagNamePrimary
  expect fun c => mayTouchName c || c = '.' || c = ':'
  tagBlanks level
  let c ← peek
  if c = some ':' then
    single .tagNameMarker
    tagBlanks level
    nameWord .tagNameLocal
    expect mayTouchName
    tagBlanks level
  else if c = some '.' then
    loop () fun _ => do
      if (← peek) = some '.' then
        single .tagNameMarker
        tagBlanks level
        nameWord .tagNameMember
        expect fun c => mayTouchName c || c = '.'
        tagBlanks level
        return .again ()
      else return .done ()
  expect mayFollowName
  exit .tagName

/-- A value of an attribute between quotes. -/
def quotedValue (level : Level) (quote : Char) : Scan Unit := do
  enter .tagAttributeValue
  single .tagAttributeMarker
  loop () fun _ => do
    match ← peek with
    | none => fail
    | some c =>
      if c = quote then return .done ()
      else if c = '\n' then tagBlanks level
      else
        enter .tagAttributeText
        skipWhile (· ≠ quote)
        exit .tagAttributeText
      return .again ()
  single .tagAttributeMarker
  exit .tagAttributeValue

/-- A value of an attribute. -/
def tagAttributeValue (level : Level) : Scan Unit := do
  match ← peek with
  | none => fail
  | some c =>
    if c = '"' || c = '\'' then quotedValue level c
    else if c = '\x7b' then expression .tagAttributeExpressionValue level
    else fail

/-- An attribute of a tag.  A value may stand behind blanks only if the name has two words. -/
def tagAttribute (level : Level) : Scan Unit := do
  enter .tagAttribute
  nameWord .tagAttributeName
  expect fun c => mayTouchName c || c = ':' || c = '='
  tagBlanks level
  let c ← peek
  if c = some ':' then
    single .tagAttributeMarker
    tagBlanks level
    nameWord .tagAttributeName
    expect fun c => mayTouchName c || c = '='
    tagBlanks level
    if (← peek) = some '=' then
      single .tagAttributeMarker
      tagBlanks level
      tagAttributeValue level
    else expect mayFollowName
  else if c = some '=' then
    single .tagAttributeMarker
    tagAttributeValue level
  else expect mayFollowName
  exit .tagAttribute

/-- The attributes of a tag, and its end. -/
def tagRest (level : Level) : Scan Unit := do
  loop () fun _ => do
    tagBlanks level
    match ← peek with
    | none => fail
    | some c =>
      if c = '>' then return .done ()
      else if c = '/' then
        single .tagSelfClosingMarker
        tagBlanks level
        expect (· = '>')
        return .done ()
      else if c = '\x7b' then
        expression .tagAttributeExpression level
        return .again ()
      else if startsName c then
        tagAttribute level
        return .again ()
      else fail
  single .tagMarker

/-- A tag. -/
def tag (level : Level) : Scan Unit := do
  enter (.tag level)
  single .tagMarker
  if (← peek).any isSpaceOrEnding then fail
  else
    tagBlanks level
    let closing := (← peek) = some '/'
    if closing then
      single .tagClosingMarker
      tagBlanks level
    if (← peek) = some '>' then single .tagMarker
    else
      tagName level
      tagRest level
    exit (.tag level)

/-- What stands on lines of its own until it is closed: no container may start in it. -/
def concretely (m : Scan Unit) : Scan Unit := do
  setConcrete true
  let found ← attempt m
  setConcrete false
  if !found then fail

/-- Tags and expressions alone on their lines: behind an expression only a tag may follow, and behind a
tag either.  They follow on each other without end, so their number is bounded. -/
def componentFlow : Nat → Scan Unit
  | 0 => fail
  | fuel + 1 => do
    if (← peek) = some '<' then
      concretely (do tag .flow; blanks)
      let c ← peek
      if c = some '<' || c = some '\x7b' then componentFlow fuel
      else if !isLineEnd c then fail
    else
      concretely (do expression (.expression .flow) .flow; blanks)
      let c ← peek
      if c = some '<' then componentFlow fuel
      else if !isLineEnd c then fail

/-- A tag or an expression that starts with a mark, on lines of its own. -/
def componentAfter (mark : Char) : Scan Unit := do
  let s ← get
  if s.setting.constructs.jsx then
    indent
    if (← peek) = some mark then componentFlow s.setting.bound else fail
  else fail

/-- A tag on lines of its own. -/
def tagFlow : Scan Unit := componentAfter '<'

/-- An expression on lines of its own. -/
def expressionFlow : Scan Unit := componentAfter '\x7b'

end Scan

end Markdown

end Hypermark
