import Hypermark.Markdown.Block.Spread
import Hypermark.Markdown.Block.Table
import Hypermark.Markdown.Growth
import Hypermark.Markdown.Identifier
import Hypermark.Markdown.Inline.Reference

/-!
# From traces to trees

A tree is made from the events of a trace, one after the other.  A part of the document that is a node opens
it and ends it, and parts without nodes fill in what the node around them needs.

* `Trace.tree?` is the tree of a trace in which nothing is pending.
-/

namespace Hypermark

namespace Markdown

namespace Tree

/-- Text without a line ending at its start. -/
def dropEnding : List Char → List Char
  | '\r' :: '\n' :: rest => rest
  | '\r' :: rest => rest
  | '\n' :: rest => rest
  | text => text

/-- Text without a line ending at its end, in reverse. -/
def dropEndingBack : List Char → List Char
  | '\n' :: '\r' :: rest => rest
  | '\n' :: rest => rest
  | '\r' :: rest => rest
  | text => text

/-- Text without a line ending at its end. -/
def trimEnding (text : String) : String :=
  String.ofList (dropEndingBack text.toList.reverse).reverse

/-- Text without a line ending on each side. -/
def trimEndings (text : String) : String := trimEnding (String.ofList (dropEnding text.toList))

/-- Escaped pipes in the code of a table stand for pipes. -/
def unescapePipes : List Char → List Char
  | '\\' :: '|' :: rest => '|' :: unescapePipes rest
  | c :: rest => c :: unescapePipes rest
  | [] => []

/-- Text without one of the spaces that pad it on both sides. -/
def unpad (text : List Char) : List Char :=
  if text.head? = some ' ' ∧ text.getLast? = some ' ' ∧ text.any (· ≠ ' ') then
    text.tail.dropLast
  else text

/-- The text of code or a formula within a line. -/
def verbatimText (inTable : Bool) (text : String) : String :=
  String.ofList (unpad (if inTable then unescapePipes text.toList else text.toList))

/-- The number that digits write. -/
def number (text : String) : Nat := Reference.number 10 text

/-- A point behind the blank or the line ending with which a text starts, and the rest of the text. -/
def skipBlank (p : Point) : List Char → Point × List Char
  | '\r' :: '\n' :: rest => (⟨p.line + 1, 1, p.offset.map (· + 2)⟩, rest)
  | c :: rest =>
    if c = '\n' ∨ c = '\r' then (⟨p.line + 1, 1, p.offset.map (· + 1)⟩, rest)
    else if isSpace c then (⟨p.line, p.column + 1, p.offset.map (· + 1)⟩, rest)
    else (p, c :: rest)
  | [] => (p, [])

/-- The children of an item with a check box: the blank behind the box is no part of its paragraph. -/
def trimItem : List Mdast.Node → List Mdast.Node
  | .branch .paragraph (.leaf (.text value) (some p) :: inner) (some q) :: rest =>
    let (start, text) := skipBlank p.start value.toList
    let inner :=
      if text.isEmpty then inner
      else .leaf (.text (String.ofList text)) (some ⟨start, p.stop⟩) :: inner
    .branch .paragraph inner (some ⟨start, q.stop⟩) :: rest
  | nodes => nodes

/-- The node that a part of a document is, as far as it is known when the part starts. -/
def growing? (source : Source) (t : Trace) (i : Nat) (e : Event) : Option Growing :=
  match e.token with
  | .paragraph => some (.branch .paragraph)
  | .heading => some (.branch (.heading 0))
  | .underlined => some (.branch (.heading 0))
  | .quote => some (.branch .blockquote)
  | .item => some (.branch (.listItem (t.isSpreadItem i) none))
  | .list ordered => some (.branch (.list ordered none (t.isSpreadList ordered i)))
  | .footnote => some (.branch (.footnoteDefinition "" none))
  | .table => some (.branch (.table (Table.align t i)))
  | .tableRow => some (.branch .tableRow)
  | .tableCell => some (.branch .tableCell)
  | .emphasis => some (.branch .emphasis)
  | .strong => some (.branch .strong)
  | .strikethrough => some (.branch .delete)
  | .link => some (.branch (.link "" none))
  | .autolink => some (.branch (.link "" none))
  | .literal _ => some (.branch (.link "" none))
  | .image => some (.leaf (.image "" "" none))
  | .footnoteCall => some (.leaf (.footnoteReference "" none))
  | .definition => some (.leaf (.definition "" none "" none))
  | .thematicBreak => some (.leaf .thematicBreak)
  | .hardBreak _ => some (.leaf .lineBreak)
  | .indentedCode => some (.leaf (.code "" none none))
  | .fenced .code => some (.leaf (.code "" none none))
  | .fenced .math => some (.leaf (.math "" none))
  | .inlineVerbatim .code => some (.leaf (.inlineCode ""))
  | .inlineVerbatim .math => some (.leaf (.inlineMath ""))
  | .htmlFlow => some (.leaf (.html ""))
  | .htmlText => some (.leaf (.html ""))
  | .metadata => some (.leaf (if source.after? e.mark = some '+' then .toml "" else .yaml ""))
  | .expression .flow => some (.leaf (.flowExpression ""))
  | .expression .text => some (.leaf (.textExpression ""))
  | _ => none

/-- What is made of a part is kept aside until it ends. -/
def keepsAside : Token → Bool
  | .fenceName => true
  | .fenceInfo _ => true
  | .labelString _ => true
  | .destinationString _ => true
  | .titleString _ => true
  | .spanText => true
  | .indentedCode => true
  | .inlineVerbatim _ => true
  | .htmlFlow => true
  | .htmlText => true
  | .metadata => true
  | .expression _ => true
  | .tag _ => true
  | _ => false

/-- A part starts: its node opens, and what is made of it is kept aside. -/
def openNode (source : Source) (t : Trace) (i : Nat) (e : Event) (g : Growth) : Growth :=
  let p := e.mark.point
  let g := match growing? source t i e with
    | some growing => g.push growing e.token ⟨p, p⟩
    | none => g
  if keepsAside e.token then g.setAside e else g

/-- A part starts. -/
def enter (source : Source) (t : Trace) (i : Nat) (e : Event) (g : Growth) : Except Fault Growth :=
  let p := e.mark.point
  let g := openNode source t i e g
  match e.token with
  | .table => .ok { g with inTable := true }
  | .link => .ok { g with referrals := {} :: g.referrals }
  | .image => .ok { g with referrals := {} :: g.referrals }
  | .footnoteCall => .ok { g with referrals := {} :: g.referrals }
  | .label .link => .ok (g.modifyReferral ({ · with form := some .collapsed }))
  | .resource => .ok (g.modifyReferral ({ · with form := none }))
  | .reference => .ok (g.addText "" p p)
  | .tag _ => .ok { g with tag := { position := ⟨p, p⟩ } }
  | .tagClosingMarker => if g.tags.isEmpty then .error (.unopened p) else .ok g
  | .tagSelfClosingMarker => if g.tag.closing then .error (.closingSelf p) else .ok g
  | .tagAttribute => if g.tag.closing then .error (.closingAttribute p) else .ok g
  | .tagAttributeExpression => if g.tag.closing then .error (.closingAttribute p) else .ok g
  | _ => .ok g

/-- The text of nodes that were kept aside fills the node around them, which ends. -/
def fillNode (e : Event) (value : String → String) (g : Growth) : Except Fault Growth :=
  let (text, g) := g.gatherText
  (g.modify (.fill (value text))).pop e

/-- The text of nodes that were kept aside is a detail of the node around them. -/
def fillDetail (set : String → Growing → Growing) (g : Growth) : Growth :=
  let (text, g) := g.gatherText
  g.modify (set text)

/-- The identifier of a label that ends at an event, and the label, of which the nodes were kept aside. -/
def gatherLabel (source : Source) (e : Event) (g : Growth) :
    String × String × List Mdast.Node × Growth :=
  let (behind, nodes, g) := g.gather
  (Identifier.name (Identifier.ofLabel (source.written behind e.mark)),
    Mdast.Node.plainTextAll nodes, nodes, g)

/-- The text between brackets ends: it is the label, unless another one follows, and what is made of it are
the children of a link. -/
def endSpanText (source : Source) (e : Event) (g : Growth) : Growth :=
  let (identifier, label, nodes, g) := gatherLabel source e g
  let g := g.modifyReferral ({ · with identifier, label })
  match g.top.growing with
  | .branch (.link _ _) => { g with top := { g.top with nodes := nodes.reverse } }
  | _ => g.modify (.setAlt label)

/-- The label of a definition, a footnote or a reference ends. -/
def endLabel (source : Source) (owner : Owner) (e : Event) (g : Growth) : Growth :=
  let (identifier, label, _, g) := gatherLabel source e g
  match owner with
  | .link => g.modifyReferral fun _ => ⟨some .full, identifier, label⟩
  | _ => g.modify (.setLabel identifier label)

/-- An item ends. -/
def endItem (e : Event) (g : Growth) : Except Fault Growth :=
  let g := match g.top.growing with
    | .branch (.listItem _ (some _)) =>
      { g with top := { g.top with nodes := (trimItem g.top.nodes.reverse).reverse } }
    | _ => g
  g.pop e

/-- What stands before the address of a link when it is not written. -/
def scheme : Literal → String
  | .web => "http://"
  | .mailbox => "mailto:"
  | _ => ""

/-- The text of a part is text of the document. -/
def isText : Token → Bool
  | .data => true
  | .escapeValue => true
  | .verbatimLine => true
  | .verbatimData => true
  | .metadataLine => true
  | .htmlFlowData => true
  | .htmlTextData => true
  | .expressionData => true
  | .autolinkUri => true
  | .autolinkMailbox => true
  | .literal _ => true
  | _ => false

/-- The part is a node, and nothing else has to be done when it ends. -/
def isNode : Token → Bool
  | .paragraph => true
  | .heading => true
  | .underlined => true
  | .quote => true
  | .list _ => true
  | .footnote => true
  | .tableRow => true
  | .tableCell => true
  | .emphasis => true
  | .strong => true
  | .strikethrough => true
  | .autolink => true
  | .definition => true
  | .thematicBreak => true
  | _ => false

/-- A part ends whose text is of some use; the text starts at a point. -/
def exitWord (e : Event) (text : String) (start : Mark) (g : Growth) : Except Fault Growth :=
  let p := e.mark.point
  match e.token with
  | .lineEnding => .ok (g.lineEnding text start.point p)
  | .headingRun => .ok (g.modify (.setDepth text.length))
  | .underlineRun => .ok (g.modify (.setDepth (if text.startsWith "-" then 2 else 1)))
  | .itemNumber => .ok (g.modifyOuter (.setNumber (number text)))
  | .referenceValue base => .ok (g.addText (Reference.value base text) p p)
  | .autolinkUri => .ok (g.modify (.setUrl text))
  | .autolinkMailbox => .ok (g.modify (.setUrl (scheme .mailbox ++ text)))
  | .literal form => (g.modify (.setUrl (scheme form ++ text))).pop e
  | .tagNamePrimary => .ok { g with tag := { g.tag with name := text } }
  | .tagNameMember =>
    .ok { g with tag := { g.tag with name := some (g.tag.name.getD "" ++ "." ++ text) } }
  | .tagNameLocal =>
    .ok { g with tag := { g.tag with name := some (g.tag.name.getD "" ++ ":" ++ text) } }
  | _ => .ok g

/-- A part ends. -/
def exit (source : Source) (t : Trace) (i : Nat) (e : Event) (g : Growth) : Except Fault Growth :=
  let p := e.mark.point
  if isNode e.token then g.pop e
  else
    match e.token with
    | .table => { g with inTable := false }.pop e
    | .item => endItem e g
    | .hardBreak _ => (g.pop e).map ({ · with afterBreak := true })
    | .underlinedText => .ok { g with afterUnderlined := true }
    | .fence _ => .ok (if g.fenced then g else { g.setAside e with fenced := true })
    | .fenced _ => (fillNode e trimEndings g).map ({ · with fenced := false })
    | .metadata => fillNode e trimEndings g
    | .indentedCode => fillNode e trimEnding g
    | .htmlFlow => fillNode e id g
    | .htmlText => fillNode e id g
    | .expression _ => fillNode e id g
    | .inlineVerbatim _ => fillNode e (verbatimText g.inTable) g
    | .fenceName => .ok (fillDetail .setName g)
    | .fenceInfo _ => .ok (fillDetail .setInfo g)
    | .destinationString _ => .ok (fillDetail .setUrl g)
    | .titleString _ => .ok (fillDetail .setTitle g)
    | .labelString owner => .ok (endLabel source owner e g)
    | .spanText => .ok (endSpanText source e g)
    | .link => g.endReferral e
    | .image => g.endReferral e
    | .footnoteCall => g.endReferral e
    | .reference => .ok (g.addText "" p p)
    | .taskValue checked => .ok (g.modifyOuter (.setChecked checked))
    | .tagClosingMarker => .ok { g with tag := { g.tag with closing := true } }
    | .tagSelfClosingMarker => .ok { g with tag := { g.tag with selfClosing := true } }
    | .tag level => g.endTag level e
    | _ =>
      let start := ((t[i - 1]?).map Event.mark).getD e.mark
      let text := source.written start e.mark
      exitWord e text start (if isText e.token then g.addText text start.point p else g)

/-- Makes nodes of the events from `i` on. -/
def grow (source : Source) (t : Trace) (g : Growth) (i : Nat) : Except Fault Growth :=
  if h : i < t.size then
    let e := t[i]
    match if e.enters then enter source t i e g else exit source t i e g with
    | .ok g => grow source t g (i + 1)
    | .error fault => .error fault
  else .ok g
termination_by t.size - i

/-- The points where a trace starts and ends. -/
def position (t : Trace) : Position :=
  let point (e? : Option Event) : Point := ((e?.map Event.mark).getD Mark.origin).point
  ⟨point t[0]?, point t.back?⟩

end Tree

/-- The tree of a trace. -/
def Trace.tree? (source : Source) (t : Trace) : Except Fault Mdast.Node :=
  let position := Tree.position t
  match Tree.grow source t { top := ⟨.branch .root, .byteOrderMark, position, []⟩ } 0 with
  | .ok g => g.finish position.stop
  | .error fault => .error fault

end Markdown

end Hypermark
