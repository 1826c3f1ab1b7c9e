import Hypermark.Markdown.Source

/-!
# Traces

Reading a document leaves a trace: an event for every place where a part of it starts or ends.  Parts lie
inside each other, so the events of a trace are nested like brackets.  A part may hold text that is still
to be read; its first event then tells how, and whether it goes on with the part before.

* `Trace.skip` and `Trace.skipBack` leave parts of some kinds behind.
* `Trace.find` and `Trace.findBack?` are the nearest events of some kinds.
-/

namespace Hypermark

namespace Markdown

/-- What a label, a destination or a title belongs to. -/
inductive Owner where
  | definition
  | footnote
  | link
deriving DecidableEq, Repr, Inhabited

/-- What stands between fences or between marks and is taken as it is written. -/
inductive Verbatim where
  | code
  | math
deriving DecidableEq, Repr, Inhabited

/-- The forms of a character reference. -/
inductive ReferenceBase where
  | named
  | decimal
  | hexadecimal
deriving DecidableEq, Repr, Inhabited

/-- The forms of addresses that are links without brackets. -/
inductive Literal where
  | protocol
  | web
  | mailbox
  | mailto
  | xmpp
deriving DecidableEq, Repr, Inhabited

/-- What an opening bracket may start. -/
inductive Opening where
  | link
  | image
  | footnote
deriving DecidableEq, Repr, Inhabited

/-- Where a tag or an expression stands. -/
inductive Level where
  | flow
  | text
deriving DecidableEq, Repr, Inhabited

/-- The kinds of parts of a document. -/
inductive Token where
  | byteOrderMark
  | blank
  | lineEnding
  | blankLine
  | data
  -- containers
  | quote
  | quotePrefix
  | quoteMarker
  | item
  | itemPrefix
  | itemNumber
  | itemMarker
  | list (ordered : Bool)
  | footnote
  | footnotePrefix
  | footnoteMarker
  -- metadata
  | metadata
  | metadataFence
  | metadataRun
  | metadataLine
  -- blocks
  | content
  | paragraph
  | thematicBreak
  | thematicRun
  | heading
  | headingRun
  | headingText
  | underlined
  | underlinedText
  | underline
  | underlineRun
  | indentedCode
  | fenced (kind : Verbatim)
  | fence (kind : Verbatim)
  | fenceRun
  | fenceName
  | fenceInfo (kind : Verbatim)
  | verbatimLine
  | htmlFlow
  | htmlFlowData
  | table
  | tableHead
  | tableRow
  | tableCell
  | tableCellText
  | tableDivider
  | delimiterRow
  | delimiterMarker
  | delimiterFiller
  | definition
  | definitionMarker
  -- parts of links
  | label (owner : Owner)
  | labelMarker
  | labelString (owner : Owner)
  | destination
  | destinationMarker
  | destinationString (owner : Owner)
  | title
  | titleMarker
  | titleString (owner : Owner)
  -- text
  | run
  | emphasis
  | emphasisRun
  | strong
  | strongRun
  | strikethrough
  | strikethroughRun
  | autolink
  | autolinkMarker
  | autolinkUri
  | autolinkMailbox
  | literal (form : Literal)
  | escape
  | escapeMarker
  | escapeValue
  | reference
  | referenceMarker
  | referenceValue (base : ReferenceBase)
  | inlineVerbatim (kind : Verbatim)
  | verbatimRun
  | verbatimData
  | hardBreak (escaped : Bool)
  | htmlText
  | htmlTextData
  | opening (kind : Opening)
  | bracket
  | openingMarker
  | closing
  | span
  | spanText
  | link
  | image
  | footnoteCall
  | resource
  | resourceMarker
  | taskCheck
  | taskMarker
  | taskValue (checked : Bool)
  -- tags and expressions
  | expression (level : Level)
  | expressionMarker
  | expressionData
  | tag (level : Level)
  | tagMarker
  | tagClosingMarker
  | tagSelfClosingMarker
  | tagName
  | tagNamePrimary
  | tagNameMember
  | tagNameMarker
  | tagNameLocal
  | tagAttribute
  | tagAttributeExpression
  | tagAttributeName
  | tagAttributeMarker
  | tagAttributeValue
  | tagAttributeText
  | tagAttributeExpressionValue
deriving DecidableEq, Repr, Inhabited

/-- How the text of a part is still to be read. -/
inductive Grammar where
  | flow
  | content
  | text
  | string
deriving DecidableEq, Repr, Inhabited

/-- The text of a part is still to be read. -/
structure Pending where
  grammar : Grammar
  /-- The text goes on where the pending part before ended. -/
  continues : Bool
deriving DecidableEq, Repr, Inhabited

/-- A place where a part starts or ends. -/
structure Event where
  /-- The part starts here. -/
  enters : Bool
  token : Token
  mark : Mark
  /-- The first cell behind the place. -/
  cell : Nat
  pending : Option Pending := none
deriving Repr, Inhabited

namespace Event

/-- The event starts a part of a kind. -/
def opens (e : Event) (t : Token) : Bool := e.enters && e.token == t

/-- The event ends a part of a kind. -/
def closes (e : Event) (t : Token) : Bool := !e.enters && e.token == t

/-- An event at the place of another. -/
def enterAt (t : Token) (e : Event) : Event := { e with enters := true, token := t, pending := none }

/-- An event at the place of another. -/
def exitAt (t : Token) (e : Event) : Event := { e with enters := false, token := t, pending := none }

end Event

/-- The events of a document, or of a part of it, in order. -/
abbrev Trace := Array Event

namespace Trace

/-- The first event from `i` on of one of some kinds; behind the trace if there is none. -/
def find (t : Trace) (tokens : List Token) (i : Nat) : Nat :=
  if h : i < t.size then
    if tokens.contains t[i].token then i else find t tokens (i + 1)
  else i
termination_by t.size - i

/-- The last event at or before `i` of one of some kinds. -/
def findBack? (t : Trace) (tokens : List Token) : Nat → Option Nat
  | 0 => if (t[0]?).any fun e => tokens.contains e.token then some 0 else none
  | i + 1 =>
    if (t[i + 1]?).any fun e => tokens.contains e.token then some (i + 1)
    else findBack? t tokens i

/-- The place behind a part of a kind that is `depth` parts deep at `i`. -/
def close (t : Trace) (token : Token) (i depth : Nat) : Nat :=
  if h : i < t.size then
    let depth := if t[i].enters then depth + 1 else depth - 1
    if t[i].token = token ∧ depth = 0 then i + 1 else close t token (i + 1) depth
  else i
termination_by t.size - i

/-- Leaves behind the parts of some kinds that start at `i`. -/
def skip (t : Trace) (tokens : List Token) (i : Nat) : Nat → Nat
  | 0 => i
  | fuel + 1 =>
    match t[i]? with
    | some e =>
      if e.enters && tokens.contains e.token then skip t tokens (t.close e.token i 0) fuel else i
    | none => i

/-- Leaves behind the parts of some kinds that start at an event. -/
def skipParts (t : Trace) (tokens : List Token) (i : Nat) : Nat := t.skip tokens i t.size

/-- The event before a part of a kind of which `depth` parts are open at `i`, read backwards. -/
def openBack (t : Trace) (token : Token) (depth : Nat) : Nat → Nat
  | 0 => 0
  | i + 1 =>
    match t[i + 1]? with
    | some e =>
      let depth := if e.enters then depth - 1 else depth + 1
      if e.token = token ∧ depth = 0 then i else openBack t token depth i
    | none => i

/-- Leaves behind, backwards, the parts of some kinds that end at `i`. -/
def skipBack (t : Trace) (tokens : List Token) (i : Nat) : Nat → Nat
  | 0 => i
  | fuel + 1 =>
    match t[i]? with
    | some e =>
      if !e.enters && tokens.contains e.token then skipBack t tokens (t.openBack e.token 0 i) fuel
      else i
    | none => i

/-- Leaves behind, backwards, the parts of some kinds that end at an event. -/
def skipPartsBack (t : Trace) (tokens : List Token) (i : Nat) : Nat := t.skipBack tokens i t.size

/-- The events before a part of a kind of which `depth` parts are open, the last event first. -/
def dropPart (token : Token) (depth : Nat) : List Event → List Event
  | [] => []
  | e :: rest =>
    let depth := if e.enters then depth - 1 else depth + 1
    if e.token = token ∧ depth = 0 then rest else dropPart token depth rest

/-- Leaves out the parts of some kinds at the end of a trace, the last event first. -/
def dropParts (tokens : List Token) : Nat → List Event → List Event
  | 0, events => events
  | _, [] => []
  | fuel + 1, e :: rest =>
    if !e.enters && tokens.contains e.token then
      dropParts tokens fuel (dropPart e.token 0 (e :: rest))
    else e :: rest

end Trace

end Markdown

end Hypermark
