import Hypermark.Position

/-!
# Malformed documents

Any text is a document, unless it may have tags and expressions: these have to be closed, in the order
in which they were opened and in the node in which they were opened.
-/

namespace Hypermark

namespace Markdown

/-- A tag of a component; one without a name belongs to a fragment. -/
structure Component where
  name : Option String := none
  closing : Bool := false
  selfClosing : Bool := false
  position : Position
deriving DecidableEq, Repr, Inhabited

/-- The tag as it is written in a message. -/
def Component.text (c : Component) : String :=
  "<" ++ (if c.closing then "/" else "") ++ c.name.getD "" ++ ">"

/-- What is malformed in a document. -/
inductive Fault where
  /-- A tag is not closed before the end of its parent, or of the document. -/
  | unclosed (tag : Component) (parent : Option String) (place : Point)
  /-- A closing tag does not belong to the tag opened last. -/
  | mismatch (tag last : Component)
  /-- A closing tag stands in a node that is still open. -/
  | enclosed (tag : Component) (parent : String) (start : Point)
  /-- A closing tag has no tag to close. -/
  | unopened (slash : Point)
  /-- A closing tag has an attribute. -/
  | closingAttribute (place : Point)
  /-- A closing tag closes itself. -/
  | closingSelf (place : Point)
  /-- An expression is not closed. -/
  | unclosedExpression (place : Point)
  /-- A line of an expression or a tag lacks the marks of its containers. -/
  | lazyLine (level : String) (place : Point)
deriving DecidableEq, Repr

namespace Fault

/-- A point as it is written. -/
def pointText (p : Point) : String := toString p.line ++ ":" ++ toString p.column

/-- The point at which a fault is reported. -/
def point : Fault → Point
  | unclosed _ _ place => place
  | mismatch tag _ => tag.position.start
  | enclosed tag _ _ => tag.position.start
  | unopened slash => slash
  | closingAttribute place => place
  | closingSelf place => place
  | unclosedExpression place => place
  | lazyLine _ place => place

/-- The place of a fault as it is written. -/
def placeText : Fault → String
  | mismatch tag _ => pointText tag.position.start ++ "-" ++ pointText tag.position.stop
  | fault => pointText fault.point

/-- What is wrong. -/
def reason : Fault → String
  | unclosed tag parent _ =>
    "Expected a closing tag for `" ++ tag.text ++ "` (" ++ pointText tag.position.start ++ ")"
      ++ (match parent with
        | some name => " before the end of `" ++ name ++ "`"
        | none => "")
  | mismatch tag last =>
    "Unexpected closing tag `" ++ tag.text ++ "`, expected corresponding closing tag for `"
      ++ last.text ++ "` (" ++ pointText last.position.start ++ ")"
  | enclosed tag parent start =>
    "Expected the closing tag `" ++ tag.text ++ "` either before the start of `" ++ parent
      ++ "` (" ++ pointText start ++ "), or another opening tag after that start"
  | unopened _ => "Unexpected closing slash `/` in tag, expected an open tag first"
  | closingAttribute _ => "Unexpected attribute in closing tag, expected the end of the tag"
  | closingSelf _ =>
    "Unexpected self-closing slash `/` in closing tag, expected the end of the tag"
  | unclosedExpression _ =>
    "Unexpected end of file in expression, expected a corresponding closing brace for `\x7b`"
  | lazyLine level _ =>
    "Unexpected lazy line in " ++ level
      ++ " in container, expected line to be prefixed with `>` when in a block quote, whitespace when in a list, etc"

/-- The name of the rule that is broken. -/
def rule : Fault → String
  | unclosed .. => "end-tag-mismatch"
  | mismatch .. => "end-tag-mismatch"
  | enclosed .. => "end-tag-mismatch"
  | unopened _ => "unexpected-closing-slash"
  | closingAttribute _ => "unexpected-attribute"
  | closingSelf _ => "unexpected-self-closing-slash"
  | unclosedExpression _ => "unexpected-eof"
  | lazyLine .. => "unexpected-lazy"

/-- The wording of a fault. -/
def message (fault : Fault) : String :=
  fault.placeText ++ ": " ++ fault.reason ++ " (markdown-rs:" ++ fault.rule ++ ")"

end Fault

end Markdown

end Hypermark
