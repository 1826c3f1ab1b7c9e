import Hypermark.Proofs.Diagram.Reach

/-!
# Marking parts of a tree first

Marking a part of a tree keeps everything that is asked of the part later on: what it is marked as,
the text that a block around it takes over, and whether it is the code of a block (`Alike`).  A tree
whose children are alike is alike itself (`Alike.setChildren`), so parts may be marked first, in any
order and as often as one likes, without any effect on the marked tree (`mark_markPlaces`).
-/

namespace Hypermark.Hast.Node

/-- The text of a list depends on the texts of its nodes only. -/
theorem textContentAll_congr {nodes children : List Node}
    (h : List.Forall₂ (fun node new => new.textContent = node.textContent) nodes children) :
    textContentAll children = textContentAll nodes := by
  induction h with
  | nil => rfl
  | cons hnode _ ih => rw [textContentAll, textContentAll, hnode, ih]

end Hypermark.Hast.Node

namespace Hypermark.Diagram

open Hast

variable {language other : String}

/-- Marks the subtrees at the places one after the other; each place is looked up in the tree as it
is by then. -/
def markPlaces (language : String) (places : List (List Nat)) (tree : Node) :
    Except Refusal Node :=
  places.foldlM (fun tree place => tree.edit (.markDiagrams language) place) tree

/-! ## The code of a block -/

/-- The text of an element that is the code of a block where it is the only child of a `pre`. -/
def codeText? (language : String) : Node → Option String
  | .element tagName properties children _ _ =>
    if tagName = "code" ∧ hasClass properties (languageClass language) then
      some (Node.textContentAll children)
    else none
  | _ => none

/-- The text of a block is that of its code. -/
theorem blockText?_element (tagName : String) (properties : Properties) (child : Node)
    (position : Option Position) (extra : Members Json) :
    blockText? language (.element tagName properties [child] position extra)
      = if tagName = "pre" then codeText? language child else none := by
  by_cases hname : tagName = "pre"
  · cases child with
    | element => simp [blockText?, codeText?, hname]
    | root | text | comment | raw | other => simp [blockText?, codeText?]
  · cases child <;> simp [blockText?, hname]

/-- What has no only child is no block. -/
theorem blockText?_eq_none {node : Node} (h : ∀ child, node.childList ≠ [child]) :
    blockText? language node = none := by
  unfold blockText?
  split
  · exact absurd rfl (h _)
  · rfl

/-! ## Nodes that are marked alike -/

/-- The nodes are marked as the same, and nothing around them can tell them apart. -/
structure Alike (language : String) (node new : Node) : Prop where
  marked : mark language new = mark language node
  text : new.textContent = node.textContent
  code : codeText? language new = codeText? language node

/-- A node is marked as itself. -/
theorem Alike.refl (node : Node) : Alike language node node := ⟨rfl, rfl, rfl⟩

/-- Being alike is passed on. -/
theorem Alike.trans {node middle new : Node} (h : Alike language node middle)
    (h' : Alike language middle new) : Alike language node new :=
  ⟨h'.marked.trans h.marked, h'.text.trans h.text, h'.code.trans h.code⟩

section Children

variable {nodes children : List Node} (h : List.Forall₂ (Alike language) nodes children)

include h

/-- Children that are alike one by one have the same text. -/
theorem Alike.textContentAll_eq : Node.textContentAll children = Node.textContentAll nodes :=
  Node.textContentAll_congr (h.imp fun _ _ hnode => hnode.text)

/-- Children that are alike one by one are marked as the same. -/
theorem Alike.map_mark : children.map (mark language) = nodes.map (mark language) := by
  induction h with
  | nil => rfl
  | cons hnode _ ih => rw [List.map_cons, List.map_cons, hnode.marked, ih]

/-- Children that are alike make the same blocks. -/
theorem Alike.blockText?_eq (tagName : String) (properties : Properties)
    (position : Option Position) (extra : Members Json) :
    blockText? language (.element tagName properties children position extra)
      = blockText? language (.element tagName properties nodes position extra) := by
  cases h with
  | nil => rfl
  | cons hnode hrest =>
    cases hrest with
    | nil => rw [blockText?_element, blockText?_element, hnode.code]
    | cons => rw [blockText?_eq_none (by simp), blockText?_eq_none (by simp)]

end Children

/-- A node is marked by its text if it is a block, and otherwise by its marked children, so both
together decide what it is marked as. -/
theorem mark_setChildren_eq {node : Node} {children : List Node}
    (hblock : blockText? language (node.setChildren children) = blockText? language node)
    (hchildren : children.map (mark language) = node.childList.map (mark language)) :
    mark language (node.setChildren children) = mark language node := by
  cases htext : blockText? language node with
  | some content => rw [mark_of_blockText? htext, mark_of_blockText? (hblock.trans htext)]
  | none =>
    have hold : ¬ IsBlock language node := by simp [IsBlock, htext]
    have hnew : ¬ IsBlock language (node.setChildren children) := by simp [IsBlock, hblock, htext]
    cases node with
    | root | element =>
      rw [mark_of_not_isBlock hold rfl, mark_of_not_isBlock hnew rfl, ← hchildren]
      rfl
    | text | comment | raw | other => rfl

/-- **A node whose children are alike is alike.** -/
theorem Alike.setChildren {node : Node} {children : List Node}
    (h : List.Forall₂ (Alike language) node.childList children) :
    Alike language node (node.setChildren children) := by
  cases node with
  | root => exact ⟨mark_setChildren_eq rfl (Alike.map_mark h), rfl, rfl⟩
  | element =>
    have htext := Alike.textContentAll_eq h
    rw [Node.childList_element] at htext
    refine ⟨mark_setChildren_eq (Alike.blockText?_eq h _ _ _ _) (Alike.map_mark h), htext, ?_⟩
    simp only [Node.setChildren, codeText?, htext]
  | text | comment | raw | other => exact Alike.refl _

/-! ## Marking a part -/

/-- The text of a block is its text content, that of its marker as well. -/
theorem textContent_of_blockText? {node : Node} {content : String}
    (h : blockText? language node = some content) : node.textContent = content := by
  obtain ⟨_, _, _, _, codeProperties, children, _, _, rfl, rfl, hclass⟩ :=
    isBlock_iff.mp (show IsBlock language node by simp [IsBlock, h])
  rw [blockText?, if_pos ⟨rfl, rfl, hclass⟩, Option.some.injEq] at h
  simp [Node.textContent, Node.textContentAll, h]

/-- Marking keeps the text that a block around the node takes over. -/
theorem textContent_mark (node : Node) : (mark language node).textContent = node.textContent := by
  induction node using Node.induction_children with
  | step node ih =>
    rw [mark]
    cases nodeSearch language node with
    | block content hblock hmark =>
      rw [hmark, textContent_of_blockText? hblock]
      simp [marker, Node.tag, Node.plain, Node.textContent, Node.textContentAll]
    | kept value hnode hmark =>
      subst hnode
      rw [hmark]
      rfl
    | searched kind _ _ hmark =>
      rw [hmark]
      cases node with
      | element =>
        exact Node.textContentAll_congr
          (List.forall₂_map_right_iff.mpr (List.forall₂_same.mpr ih))
      | root | text | comment | raw | other => rfl

/-- Marking the blocks of one language keeps what is the code of a block of another, and its text. -/
theorem codeText?_mark (node : Node) :
    codeText? other (mark language node) = codeText? other node := by
  rw [mark]
  cases nodeSearch language node with
  | block content hblock hmark =>
    obtain ⟨_, _, _, _, _, _, _, _, rfl, rfl, _⟩ :=
      isBlock_iff.mp (show IsBlock language node by simp [IsBlock, hblock])
    rw [hmark]
    simp [codeText?, marker, Node.tag]
  | kept value hnode hmark =>
    subst hnode
    rw [hmark]
    rfl
  | searched kind _ hblock hmark =>
    have htext := @textContent_mark language node
    rw [mark, hmark] at htext
    rw [hmark]
    cases node with
    | element =>
      rw [Node.setChildren, Node.textContent, Node.textContent] at htext
      simp only [Node.setChildren, codeText?, htext]
    | root | text | comment | raw | other => rfl

/-- **A node is marked as it would be marked before.** -/
theorem alike_mark {node : Node} (h : ValuesOrdered node) :
    Alike language node (mark language node) :=
  ⟨mark_eq_self (not_found_of_clean.1 _ (clean_mark h)), textContent_mark node, codeText?_mark node⟩

/-- Whether a value kept by the node itself is in order is no matter of its children. -/
theorem valuesOrdered_ignoresChildren :
    Node.IgnoresChildren fun node => ∀ value, node = .other value → value.Ordered := by
  intro node children h value heq
  cases node with
  | other => exact h value heq
  | root | element | text | comment | raw => cases heq

/-- Marking keeps the objects in opaque nodes in order. -/
theorem valuesOrdered_mark {node : Node} (h : ValuesOrdered node) :
    ValuesOrdered (mark language node) := by
  induction node using Node.induction_children with
  | step node ih =>
    rw [mark]
    cases nodeSearch language node with
    | block content _ hmark =>
      rw [hmark]
      exact valuesOrdered_of_canonical (canonical_marker content)
    | kept value hnode hmark =>
      subst hnode
      rw [hmark]
      refine Node.everywhere_of_childless rfl fun marked heq => ?_
      cases heq
      exact ordered_markJson (h.here value rfl)
    | searched kind _ _ hmark =>
      rw [hmark]
      refine h.setChildren valuesOrdered_ignoresChildren fun child hchild => ?_
      obtain ⟨unmarked, hmem, rfl⟩ := List.mem_map.mp hchild
      exact ih unmarked hmem (h.child unmarked hmem)

/-- Marking a subtree leaves the values of the tree in order. -/
theorem valuesOrdered_markAt {tree new : Node} {place : List Nat} (h : ValuesOrdered tree)
    (hmark : tree.edit (.markDiagrams language) place = .ok new) : ValuesOrdered new := by
  refine Node.Everywhere.edit valuesOrdered_ignoresChildren (fun node marked hnode hhere => ?_) h
    hmark
  cases hhere
  exact valuesOrdered_mark hnode

/-- A list with one entry replaced by one that is alike. -/
theorem forall₂_set {nodes : List Node} {i : Nat} {node new : Node} (hnode : nodes[i]? = some node)
    (h : Alike language node new) : List.Forall₂ (Alike language) nodes (nodes.set i new) := by
  induction nodes generalizing i with
  | nil => cases hnode
  | cons first rest ih =>
    cases i with
    | zero =>
      cases hnode
      exact .cons h (List.forall₂_same.mpr fun node _ => Alike.refl node)
    | succ i => exact .cons (Alike.refl first) (ih hnode)

/-- **A tree is alike after one of its parts has been marked.** -/
theorem alike_markAt {tree new : Node} {place : List Nat} (h : ValuesOrdered tree)
    (hmark : tree.edit (.markDiagrams language) place = .ok new) : Alike language tree new := by
  induction place generalizing tree new with
  | nil =>
    cases hmark
    exact alike_mark h
  | cons i place ih =>
    rw [Node.edit] at hmark
    split at hmark
    · cases hmark
    · next children hchildren =>
      split at hmark
      · cases hmark
      · next child hchild =>
        obtain ⟨changed, hchanged, rfl⟩ := map_eq_ok_iff.mp hmark
        have hmem : child ∈ tree.childList := by
          rw [Node.childList_of_children? hchildren]
          exact List.mem_of_getElem? hchild
        refine Alike.setChildren ?_
        rw [Node.childList_of_children? hchildren]
        exact forall₂_set hchild (ih (h.child child hmem) hchanged)

/-- Marking parts first makes no difference. -/
theorem alike_markPlaces {tree new : Node} {places : List (List Nat)} (h : ValuesOrdered tree)
    (hmark : markPlaces language places tree = .ok new) : Alike language tree new := by
  induction places generalizing tree with
  | nil =>
    cases hmark
    exact Alike.refl _
  | cons place places ih =>
    obtain ⟨middle, hmiddle, hrest⟩ := bind_eq_ok_iff.mp hmark
    exact (alike_markAt h hmiddle).trans (ih (valuesOrdered_markAt h hmiddle) hrest)

/-- **However parts of a tree are marked first, the tree is marked as the same.** -/
theorem mark_markPlaces {tree new : Node} {places : List (List Nat)} (h : ValuesOrdered tree)
    (hplaces : markPlaces language places tree = .ok new) :
    mark language new = mark language tree :=
  (alike_markPlaces h hplaces).marked

/-- A block in the code of a block is marked first, then an opaque node, then the block around it.
-/
theorem mark_markPlaces_nested :
    let block (content : List Node) : Node :=
      .tag "pre" [] [.tag "code" (onlyClasses ["language-mermaid"]) content none] none
    let figure : Node := .other (.obj [("type", .str "figure")])
    let tree : Node := .root [block [block [.plain "a"], .plain "b"], figure] none []
    let new : Node := .root [marker "mermaid" "ab", figure] none []
    markPlaces "mermaid" [[0, 0, 0], [1], [0]] tree = .ok new ∧
    mark "mermaid" new = mark "mermaid" tree := by
  intro block figure tree new
  have hblock (content : List Node) :
      mark "mermaid" (block content) = marker "mermaid" (Node.textContentAll content) :=
    mark_of_blockText? rfl
  have hfigure : mark "mermaid" figure = figure := by
    rw [mark_other, markJson.eq_def]
    rfl
  have hfirst : tree.edit (.markDiagrams "mermaid") [0, 0, 0]
      = .ok (.root [block [marker "mermaid" "a", .plain "b"], figure] none []) :=
    congrArg (fun node => Except.ok (Node.root [block [node, .plain "b"], figure] none []))
      (hblock [.plain "a"])
  have hsecond (node : Node) :
      (Node.root [node, figure] none []).edit (.markDiagrams "mermaid") [1]
        = .ok (.root [node, figure] none []) :=
    congrArg (fun figure => Except.ok (Node.root [node, figure] none [])) hfigure
  have hthird : (Node.root [block [marker "mermaid" "a", .plain "b"], figure] none []).edit
      (.markDiagrams "mermaid") [0] = .ok new :=
    congrArg (fun node => Except.ok (Node.root [node, figure] none []))
      (hblock [marker "mermaid" "a", .plain "b"])
  have hplaces : markPlaces "mermaid" [[0, 0, 0], [1], [0]] tree = .ok new := by
    simp only [markPlaces, List.foldlM_cons, List.foldlM_nil, hfirst, bind, Except.bind]
    rw [hsecond]
    dsimp only
    rw [hthird]
    rfl
  have hcanonical {content : List Node} (h : ∀ node ∈ content, node.Canonical) :
      (block content).Canonical :=
    Node.canonical_tag propertiesFit_nil
      (by simpa using Node.canonical_tag (propertiesFit_onlyClasses _) h)
  have hcanonicalInner : (block [.plain "a"]).Canonical :=
    hcanonical (by simp [Node.canonical_plain])
  have hcanonicalFigure : figure.Canonical :=
    ⟨⟨by simp [Json.ordered_obj, Members.sorted_cons, Members.sorted_nil], rfl⟩, by simp [figure]⟩
  have htree : tree.Canonical := by
    refine ⟨extraFits_nil .root, ?_⟩
    simp only [tree, Node.childList_root, List.forall_mem_cons]
    exact ⟨hcanonical (by simp [hcanonicalInner, Node.canonical_plain]), hcanonicalFigure, by simp⟩
  exact ⟨hplaces, mark_markPlaces (valuesOrdered_of_canonical htree) hplaces⟩

end Hypermark.Diagram
