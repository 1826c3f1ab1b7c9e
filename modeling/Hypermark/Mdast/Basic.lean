import Hypermark.Position

/-!
# Markdown trees

A node is a branch, which has children, or a leaf, which has none; what it stands for is its kind.
-/

namespace Hypermark.Mdast

/-- How a reference is written. -/
inductive ReferenceForm where
  | full
  | collapsed
  | shortcut
deriving DecidableEq, Repr, Inhabited

/-- What a reference refers to. -/
structure Reference where
  form : ReferenceForm
  identifier : String
  label : Option String
deriving DecidableEq, Repr, Inhabited

/-- How the cells of a column are aligned. -/
inductive Align where
  | left
  | right
  | center
deriving DecidableEq, Repr, Inhabited

/-- The kinds of nodes with children. -/
inductive Branch where
  | root
  | paragraph
  | heading (depth : Nat)
  | emphasis
  | strong
  | delete
  | blockquote
  | link (url : String) (title : Option String)
  | linkReference (reference : Reference)
  | list (ordered : Bool) (start : Option Nat) (spread : Bool)
  | listItem (spread : Bool) (checked : Option Bool)
  | table (align : List (Option Align))
  | tableRow
  | tableCell
  | footnoteDefinition (identifier : String) (label : Option String)
  | jsxFlow (name : Option String)
  | jsxText (name : Option String)
deriving DecidableEq, Repr, Inhabited

/-- The kinds of nodes without children. -/
inductive Leaf where
  | text (value : String)
  | inlineCode (value : String)
  | code (value : String) (lang info : Option String)
  | math (value : String) (info : Option String)
  | inlineMath (value : String)
  | html (value : String)
  | lineBreak
  | thematicBreak
  | image (url alt : String) (title : Option String)
  | imageReference (alt : String) (reference : Reference)
  | footnoteReference (identifier : String) (label : Option String)
  | definition (url : String) (title : Option String) (identifier : String) (label : Option String)
  | yaml (value : String)
  | toml (value : String)
  | flowExpression (value : String)
  | textExpression (value : String)
  | esm (value : String)
deriving DecidableEq, Repr, Inhabited

namespace Leaf

/-- The name of a kind of leaf. -/
def name : Leaf → String
  | text _ => "Text"
  | inlineCode _ => "InlineCode"
  | code .. => "Code"
  | math .. => "Math"
  | inlineMath _ => "InlineMath"
  | html _ => "Html"
  | lineBreak => "Break"
  | thematicBreak => "ThematicBreak"
  | image .. => "Image"
  | imageReference .. => "ImageReference"
  | footnoteReference .. => "FootnoteReference"
  | definition .. => "Definition"
  | yaml _ => "Yaml"
  | toml _ => "Toml"
  | flowExpression _ => "MdxFlowExpression"
  | textExpression _ => "MdxTextExpression"
  | esm _ => "MdxjsEsm"

/-- The text that a leaf holds; what is not text of the document holds none. -/
def plainText : Leaf → String
  | text value => value
  | inlineCode value => value
  | code value _ _ => value
  | math value _ => value
  | inlineMath value => value
  | html value => value
  | yaml value => value
  | toml value => value
  | flowExpression value => value
  | textExpression value => value
  | esm value => value
  | _ => ""

end Leaf

/-- A node of a Markdown tree. -/
inductive Node where
  | branch (kind : Branch) (children : List Node) (position : Option Position)
  | leaf (kind : Leaf) (position : Option Position)
deriving Repr, Inhabited, BEq

namespace Node

/-- The child list of a branch. -/
def children? : Node → Option (List Node)
  | branch _ children _ => some children
  | leaf .. => none

/-- The position of a node. -/
def position? : Node → Option Position
  | branch _ _ position => position
  | leaf _ position => position

mutual

/-- The text that a node and all below it hold. -/
def plainText : Node → String
  | branch _ children _ => plainTextAll children
  | leaf kind _ => kind.plainText

/-- The text that nodes and all below them hold. -/
def plainTextAll : List Node → String
  | [] => ""
  | node :: nodes => node.plainText ++ plainTextAll nodes

end

/-- The node is a paragraph. -/
def isParagraph : Node → Bool
  | branch .paragraph .. => true
  | _ => false

end Node

end Hypermark.Mdast
