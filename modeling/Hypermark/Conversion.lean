import Hypermark.Hast.Basic
import Hypermark.Log
import Hypermark.Text.Blank

/-!
# From Markdown to hypertext

Every node of a Markdown tree becomes a list of hypertext nodes: most become one element, branches
without an element of their own give way to their children, and leaves without hypertext are dropped
with a record.

* Blocks are separated by line feeds (`separate`).
* A list is loose if it or one of its items is; in a tight item paragraphs give way to their children.
* A task item has a checkbox in front of its first paragraph, or in a paragraph of its own.
* The first row of a table is its head.
-/

namespace Hypermark

open Hast (Properties PropertyValue)

/-- Choices of the conversion. -/
structure ConversionOptions where
  /-- Raw HTML is kept as it is; otherwise it is dropped. -/
  allowDangerousHtml : Bool := false
deriving DecidableEq, Repr

namespace Conversion

/-! ## Building blocks -/

/-- An element without properties. -/
def element (tagName : String) (children : List Hast.Node) (position : Option Position) : Hast.Node :=
  .tag tagName [] children position

/-- A line feed. -/
def lineFeed : Hast.Node := .plain "\n"

/-- Puts a line feed between the nodes. -/
def separate (nodes : List Hast.Node) : List Hast.Node := nodes.intersperse lineFeed

/-- Puts line feeds around the nodes too: one in front, and one behind if there are any. -/
def separateLoose (nodes : List Hast.Node) : List Hast.Node :=
  lineFeed :: separate nodes ++ if nodes.isEmpty then [] else [lineFeed]

/-- A property that is set only if there is a value for it. -/
def optionalProperty (name : String) (value : Option String) (properties : Properties) :
    Properties :=
  match value with
  | some v => Members.insert name (.string v) properties
  | none => properties

/-- Line endings become spaces. -/
def spaceLines : List Char → List Char
  | [] => []
  | '\r' :: '\n' :: cs => ' ' :: spaceLines cs
  | c :: cs => (if c = '\n' ∨ c = '\r' then ' ' else c) :: spaceLines cs

/-- The text of a code block: its value and a line feed, unless it is empty. -/
def codeText (value : String) : String := if value.isEmpty then "" else value ++ "\n"

/-- The class of a code block: `language-` and the first word of what it says about its language. -/
def codeProperties (lang : Option String) : Properties :=
  match lang.bind Text.firstWord? with
  | some word => Hast.onlyClasses ["language-" ++ word]
  | none => []

/-- A block of code. -/
def codeBlock (properties : Properties) (content : String) (position : Option Position) : Hast.Node :=
  element "pre" [.tag "code" properties [.plain content] none] position

/-! ## Leaves -/

/-- The hypertext of leaves, each with its position. -/
abbrev LeafRule := Option Position → Mdast.Leaf → Logged (List Hast.Node)

/-- The hypertext of a leaf. -/
def leaf (options : ConversionOptions) (position : Option Position) :
    Mdast.Leaf → Logged (List Hast.Node)
  | .text value => .plain [.text value position []]
  | .inlineCode value =>
    .plain [element "code" [.plain (String.ofList (spaceLines value.toList))] position]
  | .code value lang _ => .plain [codeBlock (codeProperties lang) (codeText value) position]
  | .math value _ =>
    .plain [codeBlock (Hast.onlyClasses ["language-math", "math-display"]) value position]
  | .inlineMath value =>
    .plain [.tag "code" (Hast.onlyClasses ["language-math", "math-inline"]) [.plain value] position]
  | .html value =>
    if options.allowDangerousHtml then .plain [.raw value position []]
    else ⟨[], [.droppedHtml value]⟩
  | .lineBreak => .plain [element "br" [] position, lineFeed]
  | .thematicBreak => .plain [element "hr" [] position]
  | .image url alt title =>
    .plain [.tag "img" (optionalProperty "title" title [("alt", .string alt), ("src", .string url)])
      [] position]
  | .yaml _ | .toml _ | .definition .. => .plain []
  | kind => ⟨[], [.droppedLeaf kind position]⟩

/-! ## Lists -/

/-- The item of a list is spread. -/
def isSpreadItem : Mdast.Node → Bool
  | .branch (.listItem spread _) .. => spread
  | _ => false

/-- The item of a list is a task. -/
def isTaskItem : Mdast.Node → Bool
  | .branch (.listItem _ checked) .. => checked.isSome
  | _ => false

/-- The properties of a list. -/
def listProperties (ordered : Bool) (start : Option Nat) (hasTask : Bool) : Properties :=
  let properties : Properties :=
    match start with
    | some n => if ordered ∧ n ≠ 1 then [("start", .number (.int n))] else []
    | none => []
  if hasTask then Members.insert Hast.classProperty (.list ["contains-task-list"]) properties
  else properties

/-- A node of a list item, and whether it comes from a paragraph. -/
structure ItemPart where
  isParagraph : Bool
  node : Hast.Node

/-- The checkbox of a task. -/
def checkbox (checked : Bool) : Hast.Node :=
  .tag "input" [("checked", .bool checked), ("disabled", .bool true), ("type", .string "checkbox")]
    [] none

/-- Puts the checkbox in front: into the first part if that is a paragraph, else into one of its own. -/
def addCheckbox (box : Hast.Node) : List ItemPart → List ItemPart
  | ⟨true, .element tagName properties children position extra⟩ :: parts =>
    let children := if children.isEmpty then [box] else box :: .plain " " :: children
    ⟨true, .element tagName properties children position extra⟩ :: parts
  | parts => ⟨true, element "p" [box] none⟩ :: parts

/-- What a part becomes: in a tight item a paragraph gives way to its children. -/
def partNodes (loose : Bool) (part : ItemPart) : List Hast.Node :=
  match part.node with
  | .element _ _ children _ _ => if part.isParagraph && !loose then children else [part.node]
  | node => [node]

/-- The parts of an item with line feeds between them; `first` says that none is in front. -/
def layOut (loose first : Bool) : List ItemPart → List Hast.Node
  | [] => []
  | part :: parts =>
    let gap := if loose || !first || !part.isParagraph then [lineFeed] else []
    let ending :=
      if parts.isEmpty && (loose || !part.isParagraph) then [lineFeed] else []
    gap ++ partNodes loose part ++ ending ++ layOut loose false parts

/-- The element of a list item. -/
def itemElement (loose : Bool) (checked : Option Bool) (parts : List ItemPart)
    (position : Option Position) : Hast.Node :=
  match checked with
  | some value =>
    .tag "li" (Hast.onlyClasses ["task-list-item"])
      (layOut loose true (addCheckbox (checkbox value) parts)) position
  | none => element "li" (layOut loose true parts) position

/-! ## Tables -/

/-- The properties of a cell. -/
def cellProperties : Option Mdast.Align → Properties
  | none => []
  | some .left => [("align", .string "left")]
  | some .right => [("align", .string "right")]
  | some .center => [("align", .string "center")]

/-- The element of a row. -/
def rowElement (cells : List Hast.Node) (position : Option Position) : Hast.Node :=
  element "tr" (separateLoose cells) position

/-- The element of a table: its first row is the head. -/
def tableElement (rows : List Hast.Node) (position : Option Position) : Hast.Node :=
  let sections :=
    match rows with
    | [] => []
    | [head] => [element "thead" (separateLoose [head]) none]
    | head :: body =>
      [element "thead" (separateLoose [head]) none, element "tbody" (separateLoose body) none]
  element "table" (separateLoose sections) position

/-- The tag of a row's cells. -/
def cellTag (isHead : Bool) : String := if isHead then "th" else "td"

/-! ## Branches -/

/-- The hypertext of a branch that is neither a list nor an item nor a table, given that of its
children. -/
def branch (kind : Mdast.Branch) (children : List Hast.Node) (position : Option Position) :
    List Hast.Node :=
  match kind with
  | .root => separate children
  | .paragraph => [element "p" children position]
  | .heading depth => [element ("h" ++ toString depth) children position]
  | .emphasis => [element "em" children position]
  | .strong => [element "strong" children position]
  | .delete => [element "del" children position]
  | .blockquote => [element "blockquote" (separateLoose children) position]
  | .link url title =>
    [.tag "a" (optionalProperty "title" title [("href", .string url)]) children position]
  | _ => children

mutual

/-- The hypertext of a node. -/
def node (rule : LeafRule) : Mdast.Node → Logged (List Hast.Node)
  | .leaf kind position => rule position kind
  | .branch kind children position =>
    match kind with
    | .list ordered start spread =>
      let loose := spread || children.any isSpreadItem
      (listChildren rule loose children).map fun items =>
        [.tag (if ordered then "ol" else "ul")
          (listProperties ordered start (children.any isTaskItem)) (separateLoose items) position]
    | .listItem spread checked =>
      (itemParts rule children).map fun parts => [itemElement spread checked parts position]
    | .table align =>
      (rows rule align true children).map fun rows => [tableElement rows position]
    | kind => (nodes rule children).map fun children => branch kind children position

/-- The hypertext of a list of nodes. -/
def nodes (rule : LeafRule) : List Mdast.Node → Logged (List Hast.Node)
  | [] => .plain []
  | child :: children => (node rule child).append (nodes rule children)

/-- The hypertext of the children of a list. -/
def listChildren (rule : LeafRule) (loose : Bool) :
    List Mdast.Node → Logged (List Hast.Node)
  | [] => .plain []
  | child :: children =>
    let first :=
      match child with
      | .branch (.listItem _ checked) parts position =>
        (itemParts rule parts).map fun parts => [itemElement loose checked parts position]
      | other => node rule other
    first.append (listChildren rule loose children)

/-- The parts of a list item. -/
def itemParts (rule : LeafRule) : List Mdast.Node → Logged (List ItemPart)
  | [] => .plain []
  | child :: children =>
    ((node rule child).map fun nodes => nodes.map (ItemPart.mk child.isParagraph)).append
      (itemParts rule children)

/-- The rows among the children of a table; `isHead` says that none is in front. -/
def rows (rule : LeafRule) (align : List (Option Mdast.Align)) (isHead : Bool) :
    List Mdast.Node → Logged (List Hast.Node)
  | [] => .plain []
  | child :: children =>
    match child with
    | .branch .tableRow cellNodes position =>
      ((cells rule (cellTag isHead) align cellNodes).map fun cells =>
        [rowElement cells position]).append (rows rule align false children)
    | _ => rows rule align isHead children

/-- The cells of a row, each with the alignment of its column. -/
def cells (rule : LeafRule) (tagName : String) (align : List (Option Mdast.Align)) :
    List Mdast.Node → Logged (List Hast.Node)
  | [] => .plain []
  | child :: children =>
    let content :=
      match child with
      | .branch _ grandchildren _ => nodes rule grandchildren
      | .leaf .. => .plain []
    (content.map fun content =>
      [.tag tagName (cellProperties (align.head?.getD none)) content child.position?]).append
      (cells rule tagName align.tail children)

end

end Conversion

/-- The hypertext tree of a Markdown tree, given the rule for its leaves. -/
def Mdast.Node.toHastBy (rule : Conversion.LeafRule) : Mdast.Node → Logged Hast.Node
  | .branch .root children position =>
    (Conversion.nodes rule children).map fun children =>
      .root (Conversion.separate children) position []
  | node => (Conversion.node rule node).map fun children => .root children none []

/-- The hypertext tree of a Markdown tree. -/
def Mdast.Node.toHast (options : ConversionOptions) : Mdast.Node → Logged Hast.Node :=
  toHastBy (Conversion.leaf options)

end Hypermark
