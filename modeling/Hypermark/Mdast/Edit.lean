import Hypermark.Mdast.Basic

/-!
# Editing a Markdown tree

Changes between reading a document and making hypertext of it: those of a document's children leave
every other node as it is.
-/

namespace Hypermark.Mdast.Node

/-- Changes the children of a document. -/
def mapRoot (f : List Node → List Node) : Node → Node
  | branch .root children position => branch .root (f children) position
  | node => node

/-- Keeps the first children of a document. -/
def truncate (n : Nat) : Node → Node := mapRoot (List.take n)

/-- Turns the children of a document around. -/
def reverse : Node → Node := mapRoot List.reverse

/-- Writes the children of a document twice. -/
def duplicate : Node → Node := mapRoot fun children => children ++ children

/-- The first child of a node, or the node itself if it has none. -/
def unwrap (node : Node) : Node :=
  match node.children? with
  | some (child :: _) => child
  | _ => node

mutual

/-- Gives all code in one language another. -/
def relabelCode (language new : String) : Node → Node
  | branch kind children position => branch kind (relabelCodeAll language new children) position
  | leaf (.code value (some lang) info) position =>
    leaf (.code value (some (if lang = language then new else lang)) info) position
  | node => node

/-- Gives all code in one language another, in every tree of a list. -/
def relabelCodeAll (language new : String) : List Node → List Node
  | [] => []
  | node :: nodes => relabelCode language new node :: relabelCodeAll language new nodes

end

end Hypermark.Mdast.Node
