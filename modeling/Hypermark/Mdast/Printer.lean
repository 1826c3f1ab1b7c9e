import Hypermark.Hast.Encoder
import Hypermark.Mdast.Basic

/-!
# Writing a Markdown tree as JSON

A node is written as an object: its type, its children or value, its position, and what else its kind
holds.  What is absent is left out.
-/

namespace Hypermark.Mdast

/-- A member with a text, if there is one. -/
def textMember (name : String) (value : Option String) : List (String × Json) :=
  (value.map fun v => (name, Json.str v)).toList

/-- A member for the position, if there is one. -/
def positionMember (position : Option Position) : List (String × Json) :=
  (position.map fun p => ("position", p.written)).toList

/-- The word for the form of a reference. -/
def ReferenceForm.word : ReferenceForm → String
  | full => "full"
  | collapsed => "collapsed"
  | shortcut => "shortcut"

/-- The members of a reference. -/
def Reference.members (reference : Reference) : List (String × Json) :=
  [("referenceType", .str reference.form.word), ("identifier", .str reference.identifier)]
    ++ textMember "label" reference.label

/-- The word for an alignment. -/
def Align.word : Align → String
  | left => "left"
  | right => "right"
  | center => "center"

/-- An alignment as JSON. -/
def alignJson : Option Align → Json
  | none => .null
  | some align => .str align.word

/-- The type of a branch, and its members behind the position. -/
def Branch.members : Branch → String × List (String × Json)
  | root => ("root", [])
  | paragraph => ("paragraph", [])
  | heading depth => ("heading", [("depth", .nat depth)])
  | emphasis => ("emphasis", [])
  | strong => ("strong", [])
  | delete => ("delete", [])
  | blockquote => ("blockquote", [])
  | link url title => ("link", ("url", .str url) :: textMember "title" title)
  | linkReference reference => ("linkReference", reference.members)
  | list ordered start spread =>
    ("list", ("ordered", .bool ordered) :: (start.map fun n => ("start", Json.nat n)).toList
      ++ [("spread", .bool spread)])
  | listItem spread checked =>
    ("listItem", ("spread", .bool spread) :: (checked.map fun c => ("checked", Json.bool c)).toList)
  | table align => ("table", [("align", .arr (align.map alignJson))])
  | tableRow => ("tableRow", [])
  | tableCell => ("tableCell", [])
  | footnoteDefinition identifier label =>
    ("footnoteDefinition", ("identifier", .str identifier) :: textMember "label" label)
  | jsxFlow name => ("mdxJsxFlowElement", textMember "name" name)
  | jsxText name => ("mdxJsxTextElement", textMember "name" name)

/-- The type of a leaf, its value, and its members behind the position. -/
def Leaf.members : Leaf → String × Option String × List (String × Json)
  | text value => ("text", some value, [])
  | inlineCode value => ("inlineCode", some value, [])
  | code value lang info => ("code", some value, textMember "lang" lang ++ textMember "meta" info)
  | math value info => ("math", some value, textMember "meta" info)
  | inlineMath value => ("inlineMath", some value, [])
  | html value => ("html", some value, [])
  | lineBreak => ("break", none, [])
  | thematicBreak => ("thematicBreak", none, [])
  | image url alt title =>
    ("image", none, [("alt", .str alt), ("url", .str url)] ++ textMember "title" title)
  | imageReference alt reference => ("imageReference", none, ("alt", .str alt) :: reference.members)
  | footnoteReference identifier label =>
    ("footnoteReference", none, ("identifier", .str identifier) :: textMember "label" label)
  | definition url title identifier label =>
    ("definition", none, ("url", .str url) :: textMember "title" title
      ++ [("identifier", .str identifier)] ++ textMember "label" label)
  | yaml value => ("yaml", some value, [])
  | toml value => ("toml", some value, [])
  | flowExpression value => ("mdxFlowExpression", some value, [])
  | textExpression value => ("mdxTextExpression", some value, [])
  | esm value => ("mdxjsEsm", some value, [])

namespace Node

mutual

/-- A tree with the members of its nodes in the order they are written. -/
def written : Node → Json
  | branch kind children position =>
    let (type, members) := kind.members
    .obj ([("type", .str type), ("children", .arr (writtenAll children))]
      ++ positionMember position ++ members)
  | leaf kind position =>
    let (type, value, members) := kind.members
    .obj (("type", .str type) :: textMember "value" value ++ positionMember position ++ members)

/-- Trees with the members of their nodes in the order they are written. -/
def writtenAll : List Node → List Json
  | [] => []
  | node :: nodes => node.written :: writtenAll nodes

end

/-- The JSON text of a tree. -/
def print (node : Node) : String := node.written.print

end Node

end Hypermark.Mdast
