import Hypermark.Hast.Edit
import Hypermark.Proofs.Json.Parts
import Hypermark.Outcome

/-!
# What holds everywhere in a tree

`Node.childList` are the children of a node.  A tree is described from the leaves up: by induction
over the children (`induction_children`), or by a property that a node and every node below it has
(`Everywhere`).  Such a property is kept by a change at one place in the tree when the change keeps
it there (`Everywhere.edit`), provided that it does not look at the children of a node.
-/

namespace Hypermark.Hast.Node

/-- The children of a root or an element; other nodes have none. -/
def childList (node : Node) : List Node := node.children?.getD []

section

variable {children : List Node} {position : Option Position} {extra : Members Json}
  {tagName value : String} {properties : Properties} {json : Json}

/-- The child list of a root. -/
@[simp] theorem childList_root : (root children position extra).childList = children := rfl

/-- The child list of an element. -/
@[simp] theorem childList_element :
    (element tagName properties children position extra).childList = children := rfl

/-- The child list of an element without further members. -/
@[simp] theorem childList_tag :
    (tag tagName properties children position).childList = children := rfl

/-- A text has no children. -/
@[simp] theorem childList_text : (text value position extra).childList = [] := rfl

/-- A text of its value alone has no children. -/
@[simp] theorem childList_plain : (plain value).childList = [] := rfl

/-- A comment has no children. -/
@[simp] theorem childList_comment : (comment value position extra).childList = [] := rfl

/-- Raw markup has no children. -/
@[simp] theorem childList_raw : (raw value position extra).childList = [] := rfl

/-- An opaque node has no child list: what is in its value is not a child. -/
@[simp] theorem childList_other : (other json).childList = [] := rfl

end

/-- Where there is a child list, it is the list of the children. -/
theorem childList_of_children? {node : Node} {children : List Node}
    (h : node.children? = some children) : node.childList = children := by
  rw [childList, h, Option.getD_some]

/-! ## Places -/

/-- The empty path leads to the tree itself. -/
theorem at?_nil (node : Node) : node.at? [] = some node := by
  rw [at?]

/-- A path leads to a child first, and from there on. -/
theorem at?_cons (node : Node) (i : Nat) (path : List Nat) :
    node.at? (i :: path) = node.childList[i]?.bind fun child => child.at? path := by
  rw [at?, childList]
  cases node.children? with
  | none => rfl
  | some children =>
    dsimp only [Option.getD_some]
    cases children[i]? <;> rfl

/-! ## Induction -/

/-- A node weighs no more than a list it is in. -/
theorem weight_le_weightAll {node : Node} {nodes : List Node} (h : node ∈ nodes) :
    node.weight ≤ weightAll nodes := by
  induction nodes with
  | nil => simp at h
  | cons first rest ih =>
    rw [weightAll]
    rcases List.mem_cons.mp h with rfl | h
    · omega
    · have := ih h
      omega

/-- A child weighs less than its parent. -/
theorem weight_lt_of_mem_childList {node child : Node} (h : child ∈ node.childList) :
    child.weight < node.weight := by
  cases node with
  | root children | element _ _ children =>
    have : child.weight ≤ weightAll children := weight_le_weightAll h
    rw [weight]
    omega
  | text | comment | raw | other => cases h

/-- What holds of a node when it holds of its children, holds of every node. -/
theorem induction_children {P : Node → Prop}
    (step : ∀ node : Node, (∀ child ∈ node.childList, P child) → P node) (node : Node) :
    P node := by
  induction hn : node.weight using Nat.strong_induction_on generalizing node with
  | _ n ih =>
    subst hn
    exact step node fun child h => ih _ (weight_lt_of_mem_childList h) child rfl

/-! ## Everywhere -/

/-- The node and every node below it has a property. -/
inductive Everywhere (p : Node → Prop) : Node → Prop
  | intro {node : Node} (here : p node) (below : ∀ child ∈ node.childList, Everywhere p child) :
    Everywhere p node

/-- A property holds everywhere if it holds of the node, and everywhere in its children. -/
theorem everywhere_iff {p : Node → Prop} {node : Node} :
    Everywhere p node ↔ p node ∧ ∀ child ∈ node.childList, Everywhere p child :=
  ⟨fun ⟨here, below⟩ => ⟨here, below⟩, fun ⟨here, below⟩ => ⟨here, below⟩⟩

variable {p q : Node → Prop} {node : Node}

/-- What holds everywhere holds of the node itself. -/
theorem Everywhere.here (h : Everywhere p node) : p node := (everywhere_iff.mp h).1

/-- What holds everywhere holds everywhere in each child. -/
theorem Everywhere.child (h : Everywhere p node) : ∀ child ∈ node.childList, Everywhere p child :=
  (everywhere_iff.mp h).2

/-- Without children only the node itself counts. -/
theorem everywhere_of_childless (h : node.childList = []) (here : p node) : Everywhere p node := by
  refine ⟨here, ?_⟩
  rw [h]
  exact List.forall_mem_nil _

/-- What holds everywhere may be weakened. -/
theorem Everywhere.imp (h : ∀ node, p node → q node) (hp : Everywhere p node) :
    Everywhere q node := by
  induction hp with
  | intro here _ ih => exact ⟨h _ here, ih⟩

/-! ## Changing the children -/

/-- The property of a node is not a matter of its children. -/
def IgnoresChildren (p : Node → Prop) : Prop :=
  ∀ node children, p node → p (node.setChildren children)

/-- A node may get other children, if the property holds everywhere in them. -/
theorem Everywhere.setChildren (hp : IgnoresChildren p) {children : List Node}
    (h : Everywhere p node) (hc : ∀ child ∈ children, Everywhere p child) :
    Everywhere p (node.setChildren children) := by
  refine ⟨hp _ _ h.here, fun child hchild => ?_⟩
  cases node with
  | root | element => exact hc child hchild
  | text | comment | raw | other => cases hchild

/-- **A change at one place keeps what it keeps at that place.** -/
theorem Everywhere.edit (hp : IgnoresChildren p) {change : Edit}
    (hhere : ∀ node new, Everywhere p node → node.editHere change = .ok new → Everywhere p new)
    {path : List Nat} {new : Node} (h : Everywhere p node)
    (hedit : node.edit change path = .ok new) : Everywhere p new := by
  induction path generalizing node new with
  | nil => exact hhere node new h hedit
  | cons i path ih =>
    rw [Node.edit] at hedit
    split at hedit
    · cases hedit
    · next children hchildren =>
      split at hedit
      · cases hedit
      · next child hchild =>
        obtain ⟨changed, hchanged, rfl⟩ := map_eq_ok_iff.mp hedit
        have hbelow : ∀ c ∈ children, Everywhere p c := by
          have := h.child
          rwa [childList_of_children? hchildren] at this
        refine h.setChildren hp fun c hc => ?_
        rcases List.mem_or_eq_of_mem_set hc with hc | rfl
        · exact hbelow c hc
        · exact ih (hbelow child (List.mem_of_getElem? hchild)) hchanged

end Hypermark.Hast.Node
