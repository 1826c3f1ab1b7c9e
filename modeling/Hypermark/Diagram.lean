import Hypermark.Hast.Decoder
import Hypermark.Hast.Encoder
import Hypermark.Outcome

/-!
# Diagram blocks

A block of code in a language is a `pre` whose only child is a `code` with the class `language-` and
the language.  `Diagram.mark` turns every such block of one language into a marker: a `pre` with the
language as its only class and the text of the code as its only child.

Nodes that are kept as JSON are searched too, through their `children` arrays.  An item that can be
read as a node is searched as one, and written back only if a block was found in it; an item that
cannot is searched in the same way as the value it is in.

* `markNode` and `markJson` tell beside the result whether there was a block.
* `weight_ofJson_le`: reading a value as a node does not make it larger, so the search ends.
-/

namespace Hypermark.Diagram

open Hast

/-! ## Blocks and markers -/

/-- The class of code in a language. -/
def languageClass (language : String) : String := "language-" ++ language

/-- The text of a block of the language. -/
def blockText? (language : String) : Node → Option String
  | .element tagName _ [.element codeName properties children _ _] _ _ =>
    if tagName = "pre" ∧ codeName = "code" ∧ hasClass properties (languageClass language) then
      some (Node.textContentAll children)
    else none
  | _ => none

/-- The node is a block of the language. -/
def IsBlock (language : String) (node : Node) : Prop := (blockText? language node).isSome

instance (language : String) (node : Node) : Decidable (IsBlock language node) :=
  inferInstanceAs (Decidable (_ = true))

/-- The marker for a text. -/
def marker (language content : String) : Node :=
  .tag "pre" (onlyClasses [language]) [.plain content] none

/-! ## Reading does not enlarge -/

section Weight

open Node

/-- Every value has a weight. -/
private theorem weight_pos (value : Json) : 0 < value.weight := by
  cases value <;> simp only [Json.weight] <;> omega

/-- Every node has a weight. -/
private theorem node_weight_pos (node : Node) : 0 < node.weight := by
  cases node <;> simp only [Node.weight] <;> first | omega | exact weight_pos _

/-- A member other than the child list leaves the children that were read. -/
private theorem children_readMember {kind : Kind} {draft draft' : Draft} {name : String}
    {value : Json} (h : readMember kind draft name value = .ok draft') :
    draft'.children = draft.children := by
  unfold readMember at h
  split at h
  · obtain ⟨_, _, h⟩ := bind_eq_ok_iff.mp h
    cases h; rfl
  split at h
  · obtain ⟨_, _, h⟩ := bind_eq_ok_iff.mp h
    cases h; rfl
  split at h
  · obtain ⟨_, _, h⟩ := bind_eq_ok_iff.mp h
    cases h; rfl
  split at h
  · obtain ⟨_, _, h⟩ := bind_eq_ok_iff.mp h
    cases h; rfl
  · cases h; rfl

/-- A node weighs one more than the children that were read, at most. -/
private theorem weight_ofDraft_le {kind : Kind} {draft : Draft} {node : Node}
    (h : ofDraft kind draft = .ok node) : node.weight ≤ 1 + weightAll draft.children := by
  unfold ofDraft at h
  split at h <;> cases h <;> simp [weight]

mutual

/-- A node weighs no more than the value it is read from. -/
theorem weight_ofJson_le : (value : Json) → (node : Node) → ofJson value = .ok node →
    node.weight ≤ value.weight
  | .obj members, node, h => by
    rw [ofJson] at h
    split at h
    · cases h; simp [weight]
    · obtain ⟨draft, hdraft, h⟩ := bind_eq_ok_iff.mp h
      have hd := weight_ofDraft_le h
      have hm := weight_readMembers_le _ members _ _ hdraft
      simp only [Json.weight] at hm ⊢
      simp only [weightAll] at hm
      omega
  | .null, node, h | .bool _, node, h | .num _, node, h | .str _, node, h | .arr _, node, h => by
    rw [ofJson] at h
    · cases h; simp [weight]
    · intros; contradiction

/-- The children of a node weigh no more than the members they are read from. -/
theorem weight_readMembers_le (kind : Kind) : (members : List (String × Json)) →
    (draft draft' : Draft) → readMembers kind draft members = .ok draft' →
    weightAll draft'.children ≤ weightAll draft.children + Json.weightMembers members
  | [], draft, draft', h => by
    rw [readMembers] at h
    cases h; simp
  | (name, value) :: rest, draft, draft', h => by
    unfold readMembers at h
    split at h
    · have := weight_readMembers_le kind rest _ _ h
      simp only [Json.weightMembers]; omega
    split at h
    · split at h
      · rename_i items
        obtain ⟨children, hc, h⟩ := bind_eq_ok_iff.mp h
        have h1 := weight_ofJsonAll_le items children hc
        have h2 := weight_readMembers_le kind rest _ _ h
        simp only [Json.weightMembers, Json.weight] at h2 ⊢
        omega
      · cases h
    · obtain ⟨draft1, h1, h⟩ := bind_eq_ok_iff.mp h
      have h2 := weight_readMembers_le kind rest _ _ h
      rw [children_readMember h1] at h2
      simp only [Json.weightMembers]; omega

/-- Nodes weigh no more than the values they are read from. -/
theorem weight_ofJsonAll_le : (values : List Json) → (nodes : List Node) →
    ofJsonAll values = .ok nodes → weightAll nodes ≤ Json.weightItems values
  | [], nodes, h => by
    rw [ofJsonAll] at h
    cases h; simp [weightAll]
  | value :: values, nodes, h => by
    rw [ofJsonAll] at h
    obtain ⟨node, h1, h⟩ := bind_eq_ok_iff.mp h
    obtain ⟨rest, h2, h⟩ := bind_eq_ok_iff.mp h
    cases h
    have a := weight_ofJson_le value node h1
    have b := weight_ofJsonAll_le values rest h2
    simp only [weightAll, Json.weightItems]; omega

end

/-- The items of a `children` array weigh less than the value that has it. -/
theorem weightItems_children_lt {value : Json} {items : List Json}
    (h : value.get? "children" = some (.arr items)) : Json.weightItems items < value.weight := by
  cases value with
  | obj members =>
    simp only [Json.get?, Members.get?] at h
    simp only [Json.weight]
    suffices Json.weightItems items < Json.weightMembers members by omega
    induction members with
    | nil => simp at h
    | cons entry rest ih =>
      obtain ⟨name, value⟩ := entry
      rw [List.lookup_cons] at h
      simp only [Json.weightMembers]
      split at h
      · cases h
        simp only [Json.weight]; omega
      · have := ih h
        omega
  | _ => simp [Json.get?] at h

end Weight

/-! ## The search -/

/-- Gives an object's `children` a new array. -/
def setChildrenJson (items : List Json) : Json → Json
  | .obj members => .obj (Members.set "children" (.arr items) members)
  | value => value

mutual

/-- Marks the blocks in a tree, and tells whether there was one. -/
def markNode (language : String) (node : Node) : Node × Bool :=
  match blockText? language node with
  | some content => (marker language content, true)
  | none =>
    match node with
    | .root children position extra =>
      let (children, changed) := markNodes language children
      (.root children position extra, changed)
    | .element tagName properties children position extra =>
      let (children, changed) := markNodes language children
      (.element tagName properties children position extra, changed)
    | .other value =>
      let (value, changed) := markJson language value
      (.other value, changed)
    | node => (node, false)
termination_by 4 * node.weight + 1
decreasing_by all_goals (simp only [Node.weight]; omega)

/-- Marks the blocks in a list of trees, and tells whether there was one. -/
def markNodes (language : String) (nodes : List Node) : List Node × Bool :=
  match nodes with
  | [] => ([], false)
  | node :: rest =>
    let (node, changed) := markNode language node
    let (rest, restChanged) := markNodes language rest
    (node :: rest, changed || restChanged)
termination_by 4 * Node.weightAll nodes + 2
decreasing_by
  · simp only [Node.weightAll]; omega
  · have := node_weight_pos node
    simp only [Node.weightAll]; omega

/-- Marks the blocks in the `children` array of a value, and tells whether there was one. -/
def markJson (language : String) (value : Json) : Json × Bool :=
  match _h : value.get? "children" with
  | some (.arr items) =>
    let (items, changed) := markItems language items
    (setChildrenJson items value, changed)
  | _ => (value, false)
termination_by 4 * value.weight
decreasing_by
  have := weightItems_children_lt _h
  omega

/-- Marks the blocks in the items of a `children` array, and tells whether there was one. -/
def markItems (language : String) (items : List Json) : List Json × Bool :=
  match items with
  | [] => ([], false)
  | item :: rest =>
    let (item, changed) :=
      match _h : Node.ofJson item with
      | .error _ => markJson language item
      | .ok (.other _) => markJson language item
      | .ok node =>
        match markNode language node with
        | (node, true) => (node.toJson, true)
        | (_, false) => (item, false)
    let (rest, restChanged) := markItems language rest
    (item :: rest, changed || restChanged)
termination_by 4 * Json.weightItems items + 3
decreasing_by
  · simp only [Json.weightItems]; omega
  · simp only [Json.weightItems]; omega
  · have := weight_ofJson_le _ _ _h
    simp only [Json.weightItems]; omega
  · have := weight_pos item
    simp only [Json.weightItems]; omega

end

/-- Turns every block of the language into its marker. -/
def mark (language : String) (node : Node) : Node := (markNode language node).1

/-- The language whose blocks are marked when none is asked for. -/
def defaultLanguage : String := "mermaid"

end Hypermark.Diagram
