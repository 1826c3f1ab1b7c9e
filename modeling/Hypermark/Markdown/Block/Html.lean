import Hypermark.Markdown.Line

/-!
# Raw HTML on lines of its own

Raw HTML is recognised by its outline only.  The start of a line tells the kind, and the kind tells where
the block ends: at a closing word, or before a blank line.

* `Scan.htmlFlow` reads the lines of such a block.
-/

namespace Hypermark

namespace Markdown

/-- The kinds of raw HTML on lines of its own. -/
inductive HtmlKind where
  /-- An element whose content is no markup. -/
  | raw
  | comment
  | instruction
  | declaration
  | data
  /-- An element that stands on its own. -/
  | basic
  /-- Any other tag alone on its line. -/
  | complete
deriving DecidableEq, Repr, Inhabited

namespace HtmlKind

/-- A blank line ends the block. -/
def endsAtBlank (kind : HtmlKind) : Bool := kind = basic || kind = complete

/-- The elements whose content is no markup. -/
def rawNames : List String := ["pre", "script", "style", "textarea"]

/-- The length of the longest of them. -/
def rawNameLimit : Nat := 8

/-- The elements that stand on their own. -/
def basicNames : List String :=
  ["address", "article", "aside", "base", "basefont", "blockquote", "body", "caption", "center",
    "col", "colgroup", "dd", "details", "dialog", "dir", "div", "dl", "dt", "fieldset",
    "figcaption", "figure", "footer", "form", "frame", "frameset", "h1", "h2", "h3", "h4", "h5",
    "h6", "head", "header", "hr", "html", "iframe", "legend", "li", "link", "main", "menu",
    "menuitem", "nav", "noframes", "ol", "optgroup", "option", "p", "param", "search", "section",
    "summary", "table", "tbody", "td", "tfoot", "th", "thead", "title", "tr", "track", "ul"]

end HtmlKind

/-- Where the block goes on. -/
inductive HtmlTurn where
  /-- Somewhere inside. -/
  | inside
  /-- At the last character of the closing word. -/
  | closing
  /-- Behind the closing word. -/
  | closed
  /-- At the end of a line. -/
  | lineEnd
deriving DecidableEq, Repr, Inhabited

namespace Scan

/-- A character of the name of an element. -/
def isTagName (c : Char) : Bool := c.isAlphanum || c = '-'

/-- A character of the name of an attribute. -/
def isAttributeName (c : Char) : Bool := c.isAlphanum || c = '-' || c = '.' || c = ':' || c = '_'

/-- A character that can start the name of an attribute. -/
def isAttributeStart (c : Char) : Bool := c.isAlphanum || c = ':' || c = '_'

/-- A character that no value without quotes has. -/
def endsUnquoted (c : Char) : Bool :=
  isSpaceOrEnding c || "\"'/<=>\x60".toList.contains c

/-- The characters of a word, each of them as it is. -/
def word : List Char → Scan Unit
  | [] => pure ()
  | c :: rest => do
    if (← peek) = some c then
      eat
      word rest
    else fail

/-- The end of a tag alone on its line. -/
def completeEnd : Scan Unit := do
  if (← peek) = some '>' then
    eat
    skipWhile isSpace
    if isLineEnd (← peek) then setConcrete true else fail
  else fail

/-- A value of an attribute.  Behind one without quotes another may follow: then the answer is `true`. -/
def completeValue : Scan Bool := do
  skipWhile isSpace
  match ← peek with
  | none => fail
  | some c =>
    if c = '"' || c = '\'' then
      eat
      skipWhile (· ≠ c)
      if (← peek) = some c then
        let d ← next
        if d.any fun d => isSpace d || d = '/' || d = '>' then return false else fail
      else fail
    else if "<=>\x60".toList.contains c then fail
    else
      skipWhile (!endsUnquoted ·)
      return true

/-- The attributes of a tag alone on its line, and its end; `named` tells that a value may follow. -/
def completeAttributes : Scan Unit := loop false fun named => do
  skipWhile isSpace
  match ← peek with
  | some c =>
    if c = '=' && named then
      eat
      return .again (← completeValue)
    else if c = '/' then
      eat
      completeEnd
      return .done ()
    else if isAttributeStart c then
      eat
      skipWhile isAttributeName
      return .again true
    else
      completeEnd
      return .done ()
  | none => fail

/-- The rest of a tag, behind its name; that it closes an element was seen. -/
def htmlTag (name : String) : Scan (HtmlKind × HtmlTurn) := do
  let slash := (← peek) = some '/'
  let s ← get
  let isClosing := s.seen
  modify fun s => { s with seen := false }
  if !slash && !isClosing && HtmlKind.rawNames.contains name then
    setConcrete true
    return (.raw, .inside)
  else if HtmlKind.basicNames.contains name then
    if slash then
      if (← next) = some '>' then
        eat
        setConcrete true
        return (.basic, .inside)
      else fail
    else
      setConcrete true
      return (.basic, .inside)
  else if s.interrupt && !s.lazy then fail
  else
    if isClosing then
      skipWhile isSpace
      completeEnd
    else completeAttributes
    return (.complete, .inside)

/-- The name of a tag, and its rest. -/
def htmlName : Scan (HtmlKind × HtmlTurn) := do
  let first := (← get).mark
  skipWhile isTagName
  let c ← peek
  if c.all fun c => isSpaceOrEnding c || c = '/' || c = '>' then
    let s ← get
    htmlTag ((s.source.written first s.mark).map Char.toLower)
  else
    modify fun s => { s with seen := false }
    fail

/-- The start of raw HTML behind an exclamation mark. -/
def htmlDeclaration : Scan (HtmlKind × HtmlTurn) := do
  match ← next with
  | some c =>
    if c = '-' then
      if (← next) = some '-' then
        eat
        setConcrete true
        return (.comment, .closing)
      else fail
    else if c = '[' then
      eat
      word "CDATA[".toList
      setConcrete true
      return (.data, .inside)
    else if c.isAlpha then
      eat
      setConcrete true
      return (.declaration, .closing)
    else fail
  | none => fail

/-- The start of raw HTML. -/
def htmlStart : Scan (HtmlKind × HtmlTurn) := do
  if (← peek) ≠ some '<' then fail
  else
    enter .htmlFlowData
    match ← next with
    | some c =>
      if c = '!' then htmlDeclaration
      else if c = '/' then
        modify fun s => { s with seen := true }
        if (← next).any Char.isAlpha then htmlName
        else
          modify fun s => { s with seen := false }
          fail
      else if c = '?' then
        eat
        setConcrete true
        return (.instruction, .closing)
      else if c.isAlpha then htmlName
      else fail
    | none => fail

/-- A closing tag of an element whose content is no markup, behind its angle bracket. -/
def rawClosing : Scan HtmlTurn := do
  if (← peek) ≠ some '/' then return .inside
  else
    eat
    let first := (← get).mark
    skipUpTo Char.isAlpha HtmlKind.rawNameLimit
    let c ← peek
    let s ← get
    if c = some '>' && HtmlKind.rawNames.contains ((s.source.written first s.mark).map Char.toLower)
    then
      eat
      return .closed
    else return .inside

/-- A blank line follows. -/
def blankFollows : Scan Unit := do
  lineEnding
  blankRest

/-- How the block goes on where it is; it is done when there is no further turn. -/
def htmlTurn (kind : HtmlKind) : HtmlTurn → Scan (Turn HtmlTurn Unit)
  | .inside => do
    match ← peek with
    | none =>
      exit .htmlFlowData
      return .again .lineEnd
    | some c =>
      if c = '\n' then
        exit .htmlFlowData
        if kind.endsAtBlank then
          if ← check blankFollows then return .done () else return .again .lineEnd
        else return .again .lineEnd
      else
        eat
        if c = '-' && kind = .comment then
          if (← peek) = some '-' then
            eat
            return .again .closing
          else return .again .inside
        else if c = '<' && kind = .raw then return .again (← rawClosing)
        else if c = '>' && kind = .declaration then return .again .closed
        else if c = '?' && kind = .instruction then return .again .closing
        else if c = ']' && kind = .data then
          if (← peek) = some ']' then
            eat
            return .again .closing
          else return .again .inside
        else return .again .inside
  | .closing => do
    let c ← peek
    if c = some '>' then
      eat
      return .again .closed
    else if c = some '-' && kind = .comment then
      eat
      return .again .closing
    else return .again .inside
  | .closed => do
    skipWhile fun _ => true
    exit .htmlFlowData
    return .done ()
  | .lineEnd => do
    if ← check nextLine then
      lineEnding
      if isLineEnd (← peek) then return .again .lineEnd
      else
        enter .htmlFlowData
        return .again .inside
    else return .done ()

/-- Raw HTML on lines of its own. -/
def htmlFlow : Scan Unit := do
  if (← get).setting.constructs.htmlFlow then
    enter .htmlFlow
    indentAs .htmlFlowData
    let (kind, turn) ← htmlStart
    loop turn (htmlTurn kind)
    exit .htmlFlow
    setInterrupt false
    setConcrete false
  else fail

end Scan

end Markdown

end Hypermark
