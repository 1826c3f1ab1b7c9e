import Hypermark.Hast.Attribute
import Hypermark.Log

/-!
# Writing a tree as HTML

Elements are written with their attributes in the order of the properties, void ones without an end
tag.  Texts are escaped except inside `script` and `style`; comments and raw markup are written as they
are; a node of another kind is not written at all.

`Node.htmlLog` holds a record of everything that was not written, in document order.
-/

namespace Hypermark.Hast

/-- The elements that have no end tag and no content. -/
def voidElements : List String :=
  ["area", "base", "br", "col", "embed", "hr", "img", "input", "link", "meta", "param", "source",
    "track", "wbr"]

/-- The elements whose texts are written as they are. -/
def rawTextElements : List String := ["script", "style"]

/-- A character of a text. -/
def escapeTextChar (c : Char) : List Char :=
  if c = '&' then "&amp;".toList
  else if c = '<' then "&lt;".toList
  else if c = '>' then "&gt;".toList
  else [c]

/-- A character of an attribute's value. -/
def escapeValueChar (c : Char) : List Char :=
  if c = '"' then "&quot;".toList else escapeTextChar c

/-- A text with its markup characters escaped. -/
def escapeText (s : String) : String := String.ofList (s.toList.flatMap escapeTextChar)

/-- An attribute's value with its markup characters and quotes escaped. -/
def escapeValue (s : String) : String := String.ofList (s.toList.flatMap escapeValueChar)

/-- The attribute for a property, with the blank in front of it. -/
def attributeHtml (name : String) (value : PropertyValue) : String :=
  match value.rendering with
  | .absent => ""
  | .unsupported _ => ""
  | .bare => " " ++ attributeName name
  | .value text => " " ++ attributeName name ++ "=\"" ++ escapeValue text ++ "\""

/-- The attributes for properties. -/
def attributesHtml (properties : Properties) : String :=
  String.join (properties.map fun entry => attributeHtml entry.1 entry.2)

namespace Node

mutual

/-- The HTML of a node; `rawText` says whether texts are written as they are. -/
def htmlIn (rawText : Bool) : Node → String
  | root children .. => htmlAllIn false children
  | element tagName properties children .. =>
    "<" ++ tagName ++ attributesHtml properties ++ ">" ++
      if voidElements.contains tagName then ""
      else htmlAllIn (rawTextElements.contains tagName) children ++ "</" ++ tagName ++ ">"
  | text value .. => if rawText then value else escapeText value
  | comment value .. => "<!--" ++ value ++ "-->"
  | raw value .. => value
  | other _ => ""

/-- The HTML of a list of nodes. -/
def htmlAllIn (rawText : Bool) : List Node → String
  | [] => ""
  | node :: nodes => htmlIn rawText node ++ htmlAllIn rawText nodes

end

/-- The HTML of a tree. -/
def html (node : Node) : String := node.htmlIn false

/-! ## What is not written -/

/-- The record of a property that cannot be written. -/
def propertyLog (name : String) (value : PropertyValue) : List LogRecord :=
  match value.rendering with
  | .unsupported json => [.skippedValue name json]
  | _ => []

mutual

/-- The records made while a tree is written. -/
def htmlLog : Node → List LogRecord
  | root children .. => htmlLogAll children
  | element tagName properties children .. =>
    properties.flatMap (fun entry => propertyLog entry.1 entry.2) ++
      if voidElements.contains tagName then [] else htmlLogAll children
  | other value => [.unhandledNode ((value.get? "type").bind Json.asString?)]
  | _ => []

/-- The records made while trees are written. -/
def htmlLogAll : List Node → List LogRecord
  | [] => []
  | node :: nodes => node.htmlLog ++ htmlLogAll nodes

end

end Node

end Hypermark.Hast
