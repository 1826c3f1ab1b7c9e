import Hypermark.Diagram

/-!
# Editing a tree

Changes at one node of a tree.  `Node.edit` makes one at a path of child indices; it is refused where
there is no such node, or where the node is not of the right kind, and then nothing changes.  The changes of a
whole tree are never refused: where one does not apply, it keeps the tree.
-/

namespace Hypermark.Hast

/-- A change at a node. -/
inductive Edit where
  | markDiagrams (language : String)
  | replace (node : Node)
  | push (child : Node)
  | remove (index : Nat)
  | setProperty (name : String) (value : PropertyValue)
  | setClasses (names : List String)
deriving Repr

/-- Why a change is refused. -/
inductive Refusal where
  /-- There is no such node. -/
  | missing
  /-- The node has no child list. -/
  | leaf
  /-- The node is not an element. -/
  | notElement
deriving DecidableEq, Repr

namespace Node

/-- Makes a change at the node itself. -/
def editHere (node : Node) : Edit → Except Refusal Node
  | .markDiagrams language => .ok (Diagram.mark language node)
  | .replace new => .ok new
  | .push child =>
    match node.children? with
    | some children => .ok (node.setChildren (children ++ [child]))
    | none => .error .leaf
  | .remove index =>
    match node.children? with
    | some children =>
      if index < children.length then .ok (node.setChildren (children.eraseIdx index))
      else .error .missing
    | none => .error .leaf
  | .setProperty name value =>
    match node with
    | element .. => .ok (node.setProperty name value)
    | _ => .error .notElement
  | .setClasses names =>
    match node with
    | element .. => .ok (node.setProperty classProperty (.list names))
    | _ => .error .notElement

/-- Makes a change at the node with a path of child indices. -/
def edit (node : Node) (change : Edit) : List Nat → Except Refusal Node
  | [] => node.editHere change
  | i :: path =>
    match node.children? with
    | none => .error .missing
    | some children =>
      match children[i]? with
      | none => .error .missing
      | some child =>
        (child.edit change path).map fun changed => node.setChildren (children.set i changed)

/-! ## Changes of a whole tree -/

/-- Changes the child list, where there is one. -/
def mapChildren (f : List Node → List Node) (node : Node) : Node :=
  match node.children? with
  | some children => node.setChildren (f children)
  | none => node

/-- Adds a node behind the children. -/
def append (child : Node) : Node → Node := mapChildren fun children => children ++ [child]

/-- Turns the children around. -/
def reverse : Node → Node := mapChildren List.reverse

/-- The first child of a node, or the node itself if it has none. -/
def unwrap (node : Node) : Node :=
  match node.children? with
  | some (child :: _) => child
  | _ => node

/-- A new element around a node. -/
def wrap (tagName : String) (node : Node) : Node := .tag tagName [] [node] none

end Node

end Hypermark.Hast
