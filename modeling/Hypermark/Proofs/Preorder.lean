import Hypermark.Mdast.Basic
import Hypermark.Proofs.Hast.Tree

/-!
# Nodes in document order

The nodes of a tree in document order, every node in front of those below it (`preorder`).  What is read
off the nodes one by one is read off a node first and then off its children (`flatMap_preorder`).
Elements are told apart by their tags (`hasTag`), and from the texts between them (`elements`).
-/

namespace Hypermark.Mdast.Node

/-- The children of a branch; leaves have none. -/
def childList (node : Node) : List Node := node.children?.getD []

mutual

/-- The node and all nodes below it, in document order. -/
def preorder : Node → List Node
  | branch kind children position => branch kind children position :: preorderAll children
  | leaf kind position => [leaf kind position]

/-- The nodes of all trees of a list, in document order. -/
def preorderAll : List Node → List Node
  | [] => []
  | node :: nodes => node.preorder ++ preorderAll nodes

end

/-- The nodes of a list are those of its trees, one tree after the other. -/
theorem preorderAll_eq_flatMap (nodes : List Node) : preorderAll nodes = nodes.flatMap preorder := by
  induction nodes with
  | nil => rfl
  | cons node nodes ih => rw [preorderAll, ih, List.flatMap_cons]

/-- A node stands in front of the nodes below it. -/
theorem preorder_eq (node : Node) : node.preorder = node :: node.childList.flatMap preorder := by
  cases node with
  | branch => rw [preorder, preorderAll_eq_flatMap]; rfl
  | leaf => rfl

/-- What is read off the nodes of a tree is what is read off the node and its children. -/
theorem flatMap_preorder {α : Type} (own : Node → List α) (node : Node) :
    node.preorder.flatMap own
      = own node ++ node.childList.flatMap fun child => child.preorder.flatMap own := by
  rw [preorder_eq, List.flatMap_cons, List.flatMap_assoc]

end Hypermark.Mdast.Node

namespace Hypermark.Hast.Node

mutual

/-- The node and all nodes below it, in document order; opaque nodes are not entered. -/
def preorder : Node → List Node
  | root children position extra => root children position extra :: preorderAll children
  | element tagName properties children position extra =>
    element tagName properties children position extra :: preorderAll children
  | node => [node]

/-- The nodes of all trees of a list, in document order. -/
def preorderAll : List Node → List Node
  | [] => []
  | node :: nodes => node.preorder ++ preorderAll nodes

end

/-- The nodes of a list are those of its trees, one tree after the other. -/
theorem preorderAll_eq_flatMap (nodes : List Node) : preorderAll nodes = nodes.flatMap preorder := by
  induction nodes with
  | nil => rfl
  | cons node nodes ih => rw [preorderAll, ih, List.flatMap_cons]

/-- A node stands in front of the nodes below it. -/
theorem preorder_eq (node : Node) : node.preorder = node :: node.childList.flatMap preorder := by
  cases node with
  | root | element => rw [preorder, preorderAll_eq_flatMap]; rfl
  | text | comment | raw | other => rfl

/-- What is read off the nodes of a tree is what is read off the node and its children. -/
theorem flatMap_preorder {α : Type} (own : Node → List α) (node : Node) :
    node.preorder.flatMap own
      = own node ++ node.childList.flatMap fun child => child.preorder.flatMap own := by
  rw [preorder_eq, List.flatMap_cons, List.flatMap_assoc]

/-! ## Elements -/

/-- The node is an element with this tag. -/
def hasTag (tagName : String) : Node → Bool
  | element name .. => name = tagName
  | _ => false

/-- The node is an element. -/
def isElement : Node → Bool
  | element .. => true
  | _ => false

/-- The elements among the children of a node. -/
def elements (node : Node) : List Node := node.childList.filter isElement

end Hypermark.Hast.Node
