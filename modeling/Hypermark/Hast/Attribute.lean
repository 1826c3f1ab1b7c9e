import Hypermark.Hast.Basic
import Hypermark.Json.Printer

/-!
# Attributes

How a property becomes an attribute of HTML: what its name is there, and what is written as its value.
-/

namespace Hypermark.Hast

/-! ## Names -/

/-- The properties whose attribute has a name of its own. -/
def specialNames : List (String × String) :=
  [("className", "class"), ("htmlFor", "for"), ("acceptCharset", "accept-charset"),
    ("httpEquiv", "http-equiv"), ("xLinkHref", "xlink:href"), ("xmlLang", "xml:lang"),
    ("xmlSpace", "xml:space")]

/-- A capital ASCII letter. -/
def isCapital (c : Char) : Bool := 'A' ≤ c && c ≤ 'Z'

/-- The small letter of a capital ASCII letter, and every other character itself. -/
def lowerChar (c : Char) : Char := if isCapital c then Char.ofNat (c.toNat + 32) else c

/-- What follows `start` in a name, if it begins with a capital letter. -/
def afterWord? (start name : List Char) : Option (List Char) :=
  match start, name with
  | [], c :: cs => if isCapital c then some (c :: cs) else none
  | [], [] => none
  | _ :: _, [] => none
  | s :: ss, c :: cs => if s = c then afterWord? ss cs else none

/-- A capital letter becomes a hyphen and its small letter. -/
def hyphenate (c : Char) : List Char := if isCapital c then ['-', lowerChar c] else [c]

/-- The name of the attribute for a property. -/
def attributeName (property : String) : String :=
  match specialNames.lookup property with
  | some name => name
  | none =>
    match afterWord? "data".toList property.toList with
    | some rest => "data" ++ String.ofList (rest.flatMap hyphenate)
    | none =>
      match afterWord? "aria".toList property.toList with
      | some rest => "aria-" ++ String.ofList (rest.map lowerChar)
      | none => String.ofList (property.toList.map lowerChar)

/-! ## Values -/

/-- What is written for a property. -/
inductive Rendering where
  /-- Nothing: the property is unset. -/
  | absent
  /-- The name alone. -/
  | bare
  /-- The name and a value. -/
  | value (text : String)
  /-- Nothing: a value of this kind cannot be written. -/
  | unsupported (json : Json)
deriving DecidableEq, Repr

/-- An item of a list of mixed values. -/
def itemText : Json → String
  | .str value => value
  | value => value.print

/-- What is written for a value. -/
def PropertyValue.rendering : PropertyValue → Rendering
  | null => .absent
  | bool false => .absent
  | bool true => .bare
  | number value => .value value.text
  | string value => .value value
  | list items => .value (" ".intercalate items)
  | other (.arr items) => .value (" ".intercalate (items.map itemText))
  | other json => .unsupported json

end Hypermark.Hast
