import Hypermark.Markdown.Event
import Hypermark.Markdown.Fault
import Hypermark.Mdast.Basic

/-!
# Trees in the making

A tree is made from the outside in: a part of a document that starts is a node inside the last one that is
still open, and takes up what is made until it ends.  Nodes whose use is not known yet are kept aside, and
gathered when it is.  The nodes of components are open from one tag to another, and so may not be the last
ones open when other nodes end.

* `Growth.push` opens a node and `Growth.pop` ends the last one that is open.
* `Growth.setAside` starts to keep nodes aside, and `Growth.gather` takes them back.
* `Growth.addText` adds text, which a text before it takes up.
-/

namespace Hypermark

namespace Markdown

/-- The name of a part in a message. -/
def Token.name : Token → String
  | .paragraph => "Paragraph"
  | .heading => "HeadingAtx"
  | .underlined => "HeadingSetext"
  | .quote => "BlockQuote"
  | .item => "ListItem"
  | .list true => "ListOrdered"
  | .list false => "ListUnordered"
  | .footnote => "GfmFootnoteDefinition"
  | .tableCell => "GfmTableCell"
  | .emphasis => "Emphasis"
  | .strong => "Strong"
  | .strikethrough => "GfmStrikethrough"
  | .link => "Link"
  | .image => "Image"
  | .tag .flow => "MdxJsxFlowTag"
  | .tag .text => "MdxJsxTextTag"
  | _ => "Text"

/-- The part is a tag. -/
def Token.isTag : Token → Bool
  | .tag _ => true
  | _ => false

/-- What a node in the making will be. -/
inductive Growing where
  | branch (kind : Mdast.Branch)
  | leaf (kind : Mdast.Leaf)
  /-- No node: what is made is kept aside.  It is made of the text behind a place. -/
  | aside (behind : Mark)
deriving Repr, Inhabited

namespace Growing

/-- A text fills a leaf. -/
def fill (value : String) : Growing → Growing
  | leaf (.code _ lang info) => leaf (.code value lang info)
  | leaf (.math _ info) => leaf (.math value info)
  | leaf (.inlineCode _) => leaf (.inlineCode value)
  | leaf (.inlineMath _) => leaf (.inlineMath value)
  | leaf (.html _) => leaf (.html value)
  | leaf (.yaml _) => leaf (.yaml value)
  | leaf (.toml _) => leaf (.toml value)
  | leaf (.flowExpression _) => leaf (.flowExpression value)
  | leaf (.textExpression _) => leaf (.textExpression value)
  | kind => kind

/-- The name behind a fence. -/
def setName (lang : String) : Growing → Growing
  | leaf (.code value _ info) => leaf (.code value lang info)
  | kind => kind

/-- The words behind a fence. -/
def setInfo (info : String) : Growing → Growing
  | leaf (.code value lang _) => leaf (.code value lang info)
  | leaf (.math value _) => leaf (.math value info)
  | kind => kind

/-- The label of a definition or a footnote. -/
def setLabel (identifier label : String) : Growing → Growing
  | leaf (.definition url title _ _) => leaf (.definition url title identifier label)
  | branch (.footnoteDefinition _ _) => branch (.footnoteDefinition identifier label)
  | kind => kind

/-- What a link, an image or a definition leads to. -/
def setUrl (url : String) : Growing → Growing
  | leaf (.definition _ title identifier label) => leaf (.definition url title identifier label)
  | leaf (.image _ alt title) => leaf (.image url alt title)
  | branch (.link _ title) => branch (.link url title)
  | kind => kind

/-- The title of a link, an image or a definition. -/
def setTitle (title : String) : Growing → Growing
  | leaf (.definition url _ identifier label) => leaf (.definition url title identifier label)
  | leaf (.image url alt _) => leaf (.image url alt title)
  | branch (.link url _) => branch (.link url title)
  | kind => kind

/-- The text in the place of an image. -/
def setAlt (alt : String) : Growing → Growing
  | leaf (.image url _ title) => leaf (.image url alt title)
  | kind => kind

/-- The depth of a heading, unless it is known. -/
def setDepth (depth : Nat) : Growing → Growing
  | branch (.heading 0) => branch (.heading depth)
  | kind => kind

/-- The number of the first item of a list, unless it is known. -/
def setNumber (number : Nat) : Growing → Growing
  | branch (.list ordered none spread) => branch (.list ordered number spread)
  | kind => kind

/-- The check box of an item. -/
def setChecked (checked : Bool) : Growing → Growing
  | branch (.listItem spread _) => branch (.listItem spread checked)
  | kind => kind

/-- A link, an image or the call of a footnote that refers to a label. -/
def refer (reference : Mdast.Reference) : Growing → Growing
  | branch (.link _ _) => branch (.linkReference reference)
  | leaf (.image _ alt _) => leaf (.imageReference alt reference)
  | leaf (.footnoteReference _ _) => leaf (.footnoteReference reference.identifier reference.label)
  | kind => kind

/-- Lines of text may be children. -/
def takesLines : Growing → Bool
  | branch .paragraph => true
  | branch (.heading _) => true
  | branch .emphasis => true
  | branch .strong => true
  | branch .delete => true
  | aside _ => true
  | _ => false

end Growing

/-- A node in the making. -/
structure Frame where
  growing : Growing
  /-- The part of the document that it is. -/
  token : Token
  position : Position
  /-- The children made so far, the last one first. -/
  nodes : List Mdast.Node := []
deriving Repr, Inhabited

namespace Frame

/-- The node as it is. -/
def node (f : Frame) : Mdast.Node :=
  match f.growing with
  | .branch kind => .branch kind f.nodes.reverse (some f.position)
  | .leaf kind => .leaf kind (some f.position)
  | .aside _ => .branch .paragraph f.nodes.reverse (some f.position)

/-- Adds a child. -/
def add (f : Frame) (node : Mdast.Node) : Frame := { f with nodes := node :: f.nodes }

end Frame

/-- What is known of a link, an image or the call of a footnote that is still open: how it refers to a label,
if it does, and the label. -/
structure Referral where
  form : Option Mdast.ReferenceForm := some .shortcut
  identifier : String := ""
  label : String := ""
deriving Repr, Inhabited

/-- A tree in the making. -/
structure Growth where
  /-- The last node that is open. -/
  top : Frame
  /-- The nodes around it, the innermost first. -/
  outer : List Frame := []
  /-- The tag that was read last. -/
  tag : Component := { position := ⟨⟨1, 1, some 0⟩, ⟨1, 1, some 0⟩⟩ }
  /-- The tags of components that are open, the innermost first. -/
  tags : List Component := []
  /-- What is known of links, images and calls of footnotes that are open, the innermost first. -/
  referrals : List Referral := []
  /-- A break of a line was made last. -/
  afterBreak : Bool := false
  /-- The text of an underlined heading ended last. -/
  afterUnderlined : Bool := false
  /-- The opening fence is read. -/
  fenced : Bool := false
  /-- A table is open. -/
  inTable : Bool := false
deriving Repr, Inhabited

namespace Growth

/-- Opens a node. -/
def push (g : Growth) (growing : Growing) (token : Token) (position : Position) : Growth :=
  { g with top := ⟨growing, token, position, []⟩, outer := g.top :: g.outer }

/-- Starts to keep nodes aside. -/
def setAside (g : Growth) (e : Event) : Growth :=
  g.push (.aside e.mark) e.token ⟨e.mark.point, e.mark.point⟩

/-- Changes the last node that is open. -/
def modify (f : Growing → Growing) (g : Growth) : Growth :=
  { g with top := { g.top with growing := f g.top.growing } }

/-- Changes the node around the last one that is open. -/
def modifyOuter (f : Growing → Growing) (g : Growth) : Growth :=
  match g.outer with
  | frame :: rest => { g with outer := { frame with growing := f frame.growing } :: rest }
  | [] => g

/-- Changes what is known of the last link, image or call of a footnote. -/
def modifyReferral (f : Referral → Referral) (g : Growth) : Growth :=
  match g.referrals with
  | r :: rest => { g with referrals := f r :: rest }
  | [] => g

/-- The last node that is open ends as it is. -/
def fold (g : Growth) : Growth :=
  match g.outer with
  | frame :: rest => { g with top := frame.add g.top.node, outer := rest }
  | [] => g

/-- The nodes kept aside, and the nodes that are open around them.  What is open in them ends as it is. -/
def gatherFrom (top : Frame) : List Frame → Mark × List Mdast.Node × Frame × List Frame
  | [] => (Mark.origin, top.nodes.reverse, { top with nodes := [] }, [])
  | frame :: rest =>
    match top.growing with
    | .aside behind => (behind, top.nodes.reverse, frame, rest)
    | _ => gatherFrom (frame.add top.node) rest

/-- Takes back the nodes kept aside, and where their text starts. -/
def gather (g : Growth) : Mark × List Mdast.Node × Growth :=
  let (behind, nodes, top, outer) := gatherFrom g.top g.outer
  (behind, nodes, { g with top, outer })

/-- The text of the nodes kept aside. -/
def gatherText (g : Growth) : String × Growth :=
  let (_, nodes, g) := g.gather
  (Mdast.Node.plainTextAll nodes, g)

/-- The last node that is open ends.  A component can only end by its tag, and only where it started. -/
def pop (g : Growth) (e : Event) : Except Fault Growth :=
  match g.top.growing with
  | .aside _ => .ok g
  | _ =>
    let top := { g.top with position := { g.top.position with stop := e.mark.point } }
    if top.token ≠ e.token ∧ top.token.isTag then
      .error (.unclosed (g.tags.head?.getD g.tag) (some e.token.name) e.mark.point)
    else if top.token ≠ e.token ∧ e.token.isTag then
      .error (.enclosed g.tag top.token.name top.position.start)
    else .ok { g with top }.fold

/-- Adds text, which a text before it takes up. -/
def addText (g : Growth) (value : String) (start stop : Point) : Growth :=
  let nodes := match g.top.nodes with
    | .leaf (.text before) (some p) :: rest =>
      .leaf (.text (before ++ value)) (some ⟨p.start, stop⟩) :: rest
    | nodes => .leaf (.text value) (some ⟨start, stop⟩) :: nodes
  { g with top := { g.top with nodes } }

/-- The node made last ends at a point. -/
def extend (g : Growth) (stop : Point) : Growth :=
  let nodes := match g.top.nodes with
    | .leaf kind (some p) :: rest => .leaf kind (some ⟨p.start, stop⟩) :: rest
    | nodes => nodes
  { g with top := { g.top with nodes } }

/-- A line ends: behind a break it is part of the break, and in text it is text. -/
def lineEnding (g : Growth) (value : String) (start stop : Point) : Growth :=
  if g.afterUnderlined then { g with afterUnderlined := false }
  else if g.afterBreak then { g.extend stop with afterBreak := false }
  else if g.top.growing.takesLines then g.addText value start stop
  else g

/-- A tag ends: it opens a component, closes the last one, or is one alone. -/
def endTag (g : Growth) (level : Level) (e : Event) : Except Fault Growth :=
  let tag := { g.tag with position := { g.tag.position with stop := e.mark.point } }
  let (_, _, g) := { g with tag }.gather
  if tag.closing then
    match g.tags with
    | [] => .error (.unopened tag.position.start)
    | last :: rest =>
      if last.name ≠ tag.name then .error (.mismatch tag last)
      else { g with tags := rest }.pop e
  else
    let kind : Mdast.Branch := match level with
      | .flow => .jsxFlow tag.name
      | .text => .jsxText tag.name
    let g := g.push (.branch kind) e.token tag.position
    if tag.selfClosing then g.pop e else .ok { g with tags := tag :: g.tags }

/-- A link, an image or the call of a footnote ends. -/
def endReferral (g : Growth) (e : Event) : Except Fault Growth :=
  match g.referrals with
  | [] => g.pop e
  | r :: rest =>
    let g := match r.form with
      | some form => g.modify (.refer ⟨form, r.identifier, some r.label⟩)
      | none => g
    { g with referrals := rest }.pop e

/-- What is open at the end ends as it is. -/
def foldAll (top : Frame) : List Frame → Frame
  | [] => top
  | frame :: rest => foldAll (frame.add top.node) rest

/-- The finished tree, if all components are closed at its end. -/
def finish (g : Growth) (stop : Point) : Except Fault Mdast.Node :=
  match if g.top.token.isTag then g.tags.head? else none with
  | some tag => .error (.unclosed tag none stop)
  | none => .ok (foldAll g.top g.outer).node

end Growth

end Markdown

end Hypermark
