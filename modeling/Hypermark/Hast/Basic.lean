import Hypermark.Json.Basic
import Hypermark.Position

/-!
# Hypertext trees

A node is a root, an element, a text, a comment or raw markup, each with its position and with the
members that the tree does not interpret (`extra`); every other JSON value is kept as it is.

* `Node.children?` is the child list of a root or an element.
* `Node.weight` bounds the recursion of walks that also enter nodes kept as JSON.
* `Properties.classNames` reads the classes of an element.
-/

namespace Hypermark.Hast

/-! ## Properties -/

/-- The value of a property. -/
inductive PropertyValue where
  | null
  | bool (value : Bool)
  | number (value : JsonNumber)
  | string (value : String)
  | list (items : List String)
  | other (value : Json)
deriving DecidableEq, Repr, Inhabited

/-- The properties of an element by name. -/
abbrev Properties := Members PropertyValue

/-- A blank between classes. -/
def isAsciiBlank (c : Char) : Bool :=
  c = ' ' || c = '\t' || c = '\n' || c = '\x0c' || c = '\r'

/-- The words of a text between blanks; `word` holds the word begun, in reverse. -/
def splitBlank (blank : Char → Bool) (word : List Char) : List Char → List (List Char)
  | [] => if word.isEmpty then [] else [word.reverse]
  | c :: cs =>
    if blank c then
      if word.isEmpty then splitBlank blank [] cs
      else word.reverse :: splitBlank blank [] cs
    else splitBlank blank (c :: word) cs

/-- The words of a text between ASCII blanks. -/
def asciiWords (s : String) : List String :=
  (splitBlank isAsciiBlank [] s.toList).map String.ofList

/-- The name of the property that holds the classes. -/
def classProperty : String := "className"

/-- The classes among properties: the items of a list, or the words of a string. -/
def classNames (properties : Properties) : List String :=
  match Members.get? properties classProperty with
  | some (.list items) => items
  | some (.string value) => asciiWords value
  | _ => []

/-- The class is among the properties. -/
def hasClass (properties : Properties) (name : String) : Bool :=
  (classNames properties).contains name

/-- Properties that hold nothing but a list of classes. -/
def onlyClasses (names : List String) : Properties := [(classProperty, .list names)]

/-! ## Nodes -/

/-- A node of a hypertext tree. -/
inductive Node where
  | root (children : List Node) (position : Option Position) (extra : Members Json)
  | element (tagName : String) (properties : Properties) (children : List Node)
      (position : Option Position) (extra : Members Json)
  | text (value : String) (position : Option Position) (extra : Members Json)
  | comment (value : String) (position : Option Position) (extra : Members Json)
  | raw (value : String) (position : Option Position) (extra : Members Json)
  | other (value : Json)
deriving Repr, Inhabited

namespace Node

mutual

/-- Equality of nodes is decidable. -/
protected def decEq : (a b : Node) → Decidable (a = b)
  | root a p x, root b q y =>
    match Node.decEqAll a b with
    | isTrue h =>
      if hr : p = q ∧ x = y then isTrue (by simp [h, hr]) else isFalse (by simpa [h] using hr)
    | isFalse h => isFalse (by simp [h])
  | element t s a p x, element u r b q y =>
    match Node.decEqAll a b with
    | isTrue h =>
      if hr : t = u ∧ s = r ∧ p = q ∧ x = y then isTrue (by simp [h, hr])
      else isFalse (by simpa [h] using hr)
    | isFalse h => isFalse (by simp [h])
  | text a p x, text b q y =>
    if h : a = b ∧ p = q ∧ x = y then isTrue (by simp [h]) else isFalse (by simpa using h)
  | comment a p x, comment b q y =>
    if h : a = b ∧ p = q ∧ x = y then isTrue (by simp [h]) else isFalse (by simpa using h)
  | raw a p x, raw b q y =>
    if h : a = b ∧ p = q ∧ x = y then isTrue (by simp [h]) else isFalse (by simpa using h)
  | other a, other b => if h : a = b then isTrue (by simp [h]) else isFalse (by simpa using h)
  | root .., element .. | root .., text .. | root .., comment .. | root .., raw ..
  | root .., other _
  | element .., root .. | element .., text .. | element .., comment .. | element .., raw ..
  | element .., other _
  | text .., root .. | text .., element .. | text .., comment .. | text .., raw ..
  | text .., other _
  | comment .., root .. | comment .., element .. | comment .., text .. | comment .., raw ..
  | comment .., other _
  | raw .., root .. | raw .., element .. | raw .., text .. | raw .., comment .. | raw .., other _
  | other _, root .. | other _, element .. | other _, text .. | other _, comment ..
  | other _, raw .. => isFalse (by simp)

/-- Equality of lists of nodes is decidable. -/
protected def decEqAll : (a b : List Node) → Decidable (a = b)
  | [], [] => isTrue rfl
  | [], _ :: _ | _ :: _, [] => isFalse (by simp)
  | x :: xs, y :: ys =>
    match Node.decEq x y, Node.decEqAll xs ys with
    | isTrue h, isTrue hs => isTrue (h ▸ hs ▸ rfl)
    | isFalse h, _ => isFalse (by simp [h])
    | _, isFalse hs => isFalse (by simp [hs])

end

instance : DecidableEq Node := Node.decEq

/-- An element without position and other members. -/
def tag (tagName : String) (properties : Properties) (children : List Node)
    (position : Option Position) : Node :=
  .element tagName properties children position []

/-- A text without position and other members. -/
def plain (value : String) : Node := .text value none []

/-- The child list of a root or an element. -/
def children? : Node → Option (List Node)
  | root children .. => some children
  | element _ _ children .. => some children
  | _ => none

/-- The node with another child list, where it has one. -/
def setChildren (children : List Node) : Node → Node
  | root _ position extra => root children position extra
  | element tagName properties _ position extra =>
    element tagName properties children position extra
  | node => node

/-- The names of the six kinds of nodes. -/
def kindName : Node → String
  | root .. => "Root"
  | element .. => "Element"
  | text .. => "Text"
  | comment .. => "Comment"
  | raw .. => "Raw"
  | other _ => "Other"

mutual

/-- The number of nodes and JSON values in a tree. -/
def weight : Node → Nat
  | root children .. => 1 + weightAll children
  | element _ _ children .. => 1 + weightAll children
  | other value => value.weight
  | _ => 1

/-- The number of nodes and JSON values in a list of trees. -/
def weightAll : List Node → Nat
  | [] => 0
  | node :: nodes => node.weight + weightAll nodes

end

mutual

/-- The values of the texts below a node, concatenated; only elements are entered. -/
def textContent : Node → String
  | text value .. => value
  | element _ _ children .. => textContentAll children
  | _ => ""

/-- The values of the texts in a list of nodes, concatenated. -/
def textContentAll : List Node → String
  | [] => ""
  | node :: nodes => node.textContent ++ textContentAll nodes

end

/-! ## Places in a tree -/

/-- The node at a path of child indices. -/
def at? (node : Node) : List Nat → Option Node
  | [] => some node
  | i :: path =>
    match node.children? with
    | none => none
    | some children =>
      match children[i]? with
      | none => none
      | some child => child.at? path

/-- Gives an element's property a value. -/
def setProperty (name : String) (value : PropertyValue) : Node → Node
  | element tagName properties children position extra =>
    element tagName (Members.insert name value properties) children position extra
  | node => node

end Node

end Hypermark.Hast
