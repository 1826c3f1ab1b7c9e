import Hypermark.Markdown.Edits
import Hypermark.Markdown.Scanner

/-!
# Addresses that are links

An address between angle brackets is a link, and so is an address that stands bare in a text when it
starts like one of the web, or looks like one of a mailbox.

* `Scan.autolink` reads an address between angle brackets.
* `Scan.protocolLiteral` and `Scan.webLiteral` read a bare address of the web, without the punctuation of
  the sentence it ends.
* `Mailbox.resolve` finds the bare addresses of mailboxes in a trace.
-/

namespace Hypermark

namespace Markdown

namespace Scan

/-- A character of the name of a scheme. -/
def isScheme (c : Char) : Bool := c.isAlphanum || c = '+' || c = '-' || c = '.'

/-- A character before the at sign of a mailbox. -/
def isMailbox (c : Char) : Bool :=
  c.isAlphanum || "#$%&'*+-./=?^_\x60\x7b|\x7d~".toList.contains c

/-- The most characters of a scheme. -/
def schemeLimit : Nat := 32

/-- The most characters of a part of a domain. -/
def domainLimit : Nat := 63

/-- The closing bracket of an address between angle brackets. -/
def autolinkEnd (token : Token) : Scan Unit := do
  exit token
  modify fun s =>
    match s.events with
    | a :: b :: rest => { s with events := a :: { b with token } :: rest }
    | events => { s with events }
  single .autolinkMarker
  exit .autolink

/-- An address behind its scheme. -/
def autolinkUri : Scan Unit := do
  skipWhile fun c => !(isControl c || c = ' ' || c = '<' || c = '>')
  if (← peek) = some '>' then autolinkEnd .autolinkUri else fail

/-- The domain of a mailbox, whose parts the register counts the characters of; `hyphen` tells that the
character before was a hyphen, or that there is none in this part. -/
def autolinkDomain : Scan Unit := loop true fun hyphen => do
  match ← peek with
  | none =>
    setSize 0
    fail
  | some c =>
    if c = '.' && !hyphen then
      setSize 0
      if (← next).any Char.isAlphanum then return .again true else fail
    else if c = '>' && !hyphen then
      setSize 0
      autolinkEnd .autolinkMailbox
      return .done ()
    else if (c = '-' || c.isAlphanum) && (← get).size < domainLimit then
      addSize 1
      eat
      return .again (c = '-')
    else
      setSize 0
      fail

/-- The address of a mailbox. -/
def autolinkMailbox : Scan Unit := do
  skipWhile isMailbox
  if (← peek) = some '@' then
    if (← next).any Char.isAlphanum then autolinkDomain else fail
  else fail

/-- An address between angle brackets. -/
def autolink : Scan Unit := do
  if (← get).setting.constructs.autolink then
    enter .autolink
    single .autolinkMarker
    enter .autolinkUri
    match ← peek with
    | none => fail
    | some c =>
      if c.isAlpha then
        if (← next).any isScheme then
          let s ← get
          skipUpTo isScheme (schemeLimit - 1)
          setSize 0
          if (← peek) = some ':' && s.here < (← get).here then
            eat
            autolinkUri
          else autolinkMailbox
        else autolinkMailbox
      else if c = '@' then fail
      else autolinkMailbox
  else fail

/-- The class of the character of the document at the next place, which may lie behind the text. -/
def kindNext : Scan Kind := do
  let c ← peek
  let s ← get
  match c with
  | some c => if c = '\n' then return .blank else return Kind.of (some c)
  | none => return Kind.of (s.source.after? s.mark)

/-- A character that may end the sentence around an address. -/
def isTrailing (c : Char) : Bool := "!\"')*,.:;?_~".toList.contains c

/-- Nothing but the end of a sentence is left: punctuation and character references up to a blank or an
angle bracket. -/
def trail : Scan Unit := loop () fun _ => do
  let c ← peek
  if c.any isTrailing then
    eat
    return .again ()
  else if c = some '&' then
    if (← next).any Char.isAlpha then
      skipWhile Char.isAlpha
      if (← peek) = some ';' then
        eat
        return .again ()
      else fail
    else fail
  else if c = some '<' then return .done ()
  else if c = some ']' then
    let d ← next
    if d.all fun d => isSpaceOrEnding d || d = '(' || d = '[' then return .done ()
    else return .again ()
  else if (← kindNext) = .blank then return .done ()
  else fail

/-- What is known of the domain of a bare address. -/
structure DomainTurn where
  /-- Its last part has an underscore. -/
  last : Bool := false
  /-- The part before its last one has an underscore. -/
  before : Bool := false
  /-- It has a letter or digit. -/
  seen : Bool := false

/-- The domain of a bare address: neither of its last two parts has an underscore. -/
def literalDomain : Scan Unit := loop ({} : DomainTurn) fun turn => do
  let stop : Scan (Turn DomainTurn Unit) :=
    if turn.last || turn.before || !turn.seen then fail else pure (.done ())
  let c ← peek
  if c = some '.' || c = some '_' then
    if ← check trail then stop
    else
      eat
      if c = some '_' then return .again { turn with last := true }
      else return .again { turn with before := turn.last, last := false }
  else if c = some '-' then
    eat
    return .again turn
  else if (← kindNext) = .other && c.isSome then
    eat
    return .again { turn with seen := true }
  else stop

/-- A character that is no part of an address if only such characters follow. -/
def isPathPunctuation (c : Char) : Bool := "!\"&')*,.:;<?]_~".toList.contains c

/-- What follows on the domain of a bare address, which has `closed` closing parentheses.  The register
counts the opening ones. -/
def literalPath : Scan Unit := do
  loop 0 fun closed => do
    let c ← peek
    match c with
    | none => return .done ()
    | some c =>
      if c = '(' then
        addSize 1
        eat
        return .again closed
      else if isPathPunctuation c then
        let ends ← check trail
        if ends && !(c = ')' && closed < (← get).size) then return .done ()
        else
          eat
          return .again (if c = ')' then closed + 1 else closed)
      else if (← kindNext) = .blank then return .done ()
      else
        eat
        return .again closed
  setSize 0

/-- The most letters of a scheme of the web. -/
def protocolLimit : Nat := 5

/-- The scheme of a bare address of the web.  The register counts the slashes. -/
def protocolStart : Scan Unit := do
  let first := (← get).mark
  skipUpTo Char.isAlpha protocolLimit
  let c ← peek
  let s ← get
  let name := (s.source.written first s.mark).map Char.toLower
  if c = some ':' && (name = "http" || name = "https") then
    let _ ← next
    loop () fun _ => do
      if (← peek) = some '/' then
        eat
        if (← get).size = 0 then
          addSize 1
          return .again ()
        else
          setSize 0
          return .done ()
      else
        setSize 0
        fail
  else fail

/-- A bare address with a scheme. -/
def protocolLiteral : Scan Unit := do
  let s ← get
  if s.setting.constructs.gfmAutolinkLiteral && !s.previous.any Char.isAlpha then
    enter (.literal .protocol)
    protocolStart
    literalDomain
    literalPath
    exit (.literal .protocol)
  else fail

/-- The start of a bare address without a scheme.  The register counts its letters. -/
def webStart : Scan Unit := do
  loop () fun _ => do
    let c ← peek
    let size := (← get).size
    if c = some '.' && size = 3 then
      setSize 0
      return .done ()
    else if (c = some 'w' || c = some 'W') && size < 3 then
      addSize 1
      eat
      return .again ()
    else
      setSize 0
      fail
  if (← next).isNone then fail

/-- A character before which an address without a scheme may start. -/
def mayPrecedeWeb (c : Char) : Bool := isSpaceOrEnding c || "(*_[]~".toList.contains c

/-- A bare address without a scheme. -/
def webLiteral : Scan Unit := do
  let s ← get
  if s.setting.constructs.gfmAutolinkLiteral && s.previous.all mayPrecedeWeb then
    enter (.literal .web)
    if ← check webStart then
      literalDomain
      literalPath
      exit (.literal .web)
    else fail
  else fail

end Scan

namespace Mailbox

/-- A character before the at sign of a bare mailbox. -/
def isLocal (c : Char) : Bool := c.isAlphanum || c = '+' || c = '-' || c = '.' || c = '_'

/-- A bare mailbox in a text: what stands before it, itself, and what is left, and its form. -/
structure Found where
  before : List Char
  address : List Char
  rest : List Char
  form : Literal

/-- Splits off the end of a text whose characters are of a class; both parts are in reverse. -/
def splitEnd (p : Char → Bool) (text : List Char) : List Char × List Char := text.span p

/-- The scheme at the end of a text, which is in reverse: its characters and the text before. -/
def scheme? (before : List Char) : Option (Literal × List Char × List Char) :=
  match before with
  | ':' :: before =>
    let (name, rest) := splitEnd Char.isAlphanum before
    let word := String.ofList (name.reverse.map Char.toLower)
    if word = "xmpp" then some (.xmpp, ':' :: name, rest)
    else if word = "mailto" then some (.mailto, ':' :: name, rest)
    else none
  | _ => none

/-- The domain of a bare mailbox at the start of a text: its characters, the last one first, and the text
behind it; `dot` tells that it has more than one part. -/
def domain (slash : Bool) (done : List Char) (dot : Bool) : List Char → List Char × List Char × Bool
  | [] => (done, [], dot)
  | c :: rest =>
    if c.isAlphanum || c = '-' || c = '_' || (slash && c = '/') then domain slash (c :: done) dot rest
    else if c = '.' && rest.head?.any Char.isAlphanum then domain slash (c :: done) true rest
    else (done, c :: rest, dot)

/-- The bare mailbox around an at sign; the text before it is in reverse. -/
def at? (before rest : List Char) : Option Found :=
  let (name, before) := splitEnd isLocal before
  if name.isEmpty || before.head? = some '/' then none
  else
    let (form, scheme, before) := (scheme? before).getD (.mailbox, [], before)
    let (domain, rest, dot) := domain (form = .xmpp) [] false rest
    if dot && domain.head?.any (fun c => c = '.' || c.isAlpha) then
      some ⟨before, scheme.reverse ++ name.reverse ++ '@' :: domain.reverse, rest, form⟩
    else none

/-- The pieces of a text: bare mailboxes and what stands between them.  `before` is the text since the
last one, in reverse, and `least` how much of it may belong to one. -/
def pieces (before : List Char) : List Char → Nat → List (List Char × Option Literal)
  | text, 0 => [(before.reverse ++ text, none)]
  | [], _ => [(before.reverse, none)]
  | c :: rest, fuel + 1 =>
    if c = '@' then
      match at? before rest with
      | some found =>
        (found.before.reverse, none) :: (found.address, some found.form) ::
          (match found.rest with
          | [] => pieces [] [] fuel
          | d :: rest => pieces [d] rest fuel)
      | none => pieces (c :: before) rest fuel
    else pieces (c :: before) rest fuel

/-- The place behind characters. -/
def shift (m : Mark) : List Char → Mark
  | [] => m
  | c :: rest => shift (m.behind c) rest

/-- The events of pieces of a text. -/
def events (source : Source) (m : Mark) (last : Event) : List (List Char × Option Literal) → List Event
  | [] => []
  | (text, form) :: rest =>
    if text.isEmpty then events source m last rest
    else
      let behind := shift m text
      let token := (form.map Token.literal).getD .data
      let isLast := form.isNone && rest.all fun piece => piece.1.isEmpty
      let stop := if isLast then last.mark else behind
      ⟨true, token, m, last.cell, none⟩ :: ⟨false, token, stop, last.cell, none⟩
        :: events source behind last rest

/-- Puts the bare mailboxes in the texts of a trace, `links` links deep, from `i` on. -/
def addTo (source : Source) (t : Trace) (edits : Edits) (links i : Nat) : Edits :=
  if h : i < t.size then
    let e := t[i]
    if e.opens .link then addTo source t edits (links + 1) (i + 1)
    else if e.closes .link then addTo source t edits (links - 1) (i + 1)
    else if e.closes .data && links = 0 then
      match t[i - 1]? with
      | some first =>
        let text := source.written first.mark e.mark
        let edits :=
          if text.contains '@' then
            let found := pieces [] text.toList text.length
            if found.any fun piece => piece.2.isSome then
              edits.replace (i - 1) 2 (events source first.mark e found)
            else edits
          else edits
        addTo source t edits links (i + 1)
      | none => addTo source t edits links (i + 1)
    else addTo source t edits links (i + 1)
  else edits
termination_by t.size - i

/-- Finds the bare mailboxes of a trace. -/
def resolve (source : Source) (t : Trace) : Trace := (addTo source t (.none t) 0 0).apply t

end Mailbox

end Markdown

end Hypermark
