import Hypermark.Json.Printer
import Hypermark.Mdast.Basic

/-!
# What is worth a note

Nothing that is left out of a result is left out silently: every step that drops something makes a
record of it.  `Logged` is a value together with the records made on the way to it, oldest first.
-/

namespace Hypermark

/-- Something that happened on the way from Markdown to HTML. -/
inductive LogRecord where
  /-- A node of an unknown type is not written as HTML. -/
  | unhandledNode (type : Option String)
  /-- The value of a property cannot be written as an attribute. -/
  | skippedValue (property : String) (value : Json)
  /-- Raw HTML is not allowed. -/
  | droppedHtml (value : String)
  /-- There is no hypertext for a leaf. -/
  | droppedLeaf (leaf : Mdast.Leaf) (position : Option Position)
  /-- A text was read as Markdown. -/
  | parsed (bytes transforms : Nat)
  /-- A hypertext tree was transformed. -/
  | transformed (transforms : Nat)
deriving DecidableEq, Repr

namespace LogRecord

/-- The wording of a record, behind its level. A leaf is written out with its position in the way
`written` gives, and only named if no way is given. -/
def message (record : LogRecord)
    (written : Mdast.Leaf → Option Position → String := fun leaf _ => leaf.name) : String :=
  match record with
  | unhandledNode type => "WARN Unhandled hast node type: " ++ type.getD "<untyped>"
  | skippedValue property value =>
    "DEBUG Skipping unsupported value for property `" ++ property ++ "`: " ++ value.print
  | droppedHtml value => "DEBUG Dropping raw HTML node: " ++ value
  | droppedLeaf leaf position =>
    "DEBUG Dropping unsupported mdast node: " ++ written leaf position
  | parsed bytes transforms =>
    "TRACE parsed markdown (" ++ toString bytes ++ " bytes), applied " ++ toString transforms
      ++ " mdast transforms"
  | transformed transforms => "TRACE applied " ++ toString transforms ++ " hast transforms"

end LogRecord

/-- A value and the records made on the way to it. -/
structure Logged (α : Type) where
  value : α
  log : List LogRecord
deriving Repr

namespace Logged

variable {α β : Type}

/-- A value without a record. -/
def plain (value : α) : Logged α := ⟨value, []⟩

/-- Changes the value. -/
def map (f : α → β) (x : Logged α) : Logged β := ⟨f x.value, x.log⟩

/-- One list behind the other. -/
def append (x y : Logged (List α)) : Logged (List α) := ⟨x.value ++ y.value, x.log ++ y.log⟩

end Logged

end Hypermark
