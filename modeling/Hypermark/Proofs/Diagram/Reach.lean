import Hypermark.Proofs.Diagram.Values
import Mathlib.Logic.Relation

/-!
# What the search reaches

The nodes of a tree are its own, and those of the values in it as far as they can be read: an item
of a `children` array that can be read gives a node, one that cannot is looked into in the same way
(`Reachable`).

After marking, no block of the language is reachable (`clean_mark`), and a block is found exactly
where one is reachable (`found_iff`); where none is, marking changes nothing.
-/

namespace Hypermark.Diagram

open Hast Relation

variable {language other : String}

/-! ## Places -/

/-- A place in a tree: at a node, or at a value in which there may be nodes. -/
inductive Place where
  | node (node : Node)
  | value (value : Json)

/-- From a place to one directly below. -/
inductive Step : Place → Place → Prop
  /-- From a node to a child. -/
  | child {node child : Node} (h : child ∈ node.childList) : Step (.node node) (.node child)
  /-- From an opaque node to its value. -/
  | kept {value : Json} : Step (.node (.other value)) (.value value)
  /-- From a value to the node that an item of its `children` array is read as. -/
  | read {value item : Json} {node : Node} (h : item ∈ childItems value)
      (hread : Node.ofJson item = .ok node) : Step (.value value) (.node node)
  /-- From a value to an item of its `children` array that cannot be read. -/
  | unread {value item : Json} {mismatch : Mismatch} (h : item ∈ childItems value)
      (hread : Node.ofJson item = .error mismatch) : Step (.value value) (.value item)

/-- The node is the tree itself or lies below it. -/
def Reachable (tree node : Node) : Prop := ReflTransGen Step (.node tree) (.node node)

/-- Every node at or below the place has a property. -/
def Throughout (p : Node → Prop) (place : Place) : Prop :=
  ∀ node, ReflTransGen Step place (.node node) → p node

section Throughout

variable {p : Node → Prop} {node : Node} {value : Json}

/-- What holds throughout a tree holds of its root. -/
theorem Throughout.here (h : Throughout p (.node node)) : p node :=
  h node .refl

/-- What holds throughout a place holds throughout each place below it. -/
theorem Throughout.step {place next : Place} (h : Throughout p place) (hstep : Step place next) :
    Throughout p next :=
  fun node hnode => h node (.head hstep hnode)

/-- A property holds throughout a tree if it holds of the root, of the children's trees, and of the
value that an opaque root keeps. -/
theorem throughout_node (here : p node)
    (hchildren : ∀ child ∈ node.childList, Throughout p (.node child))
    (hkept : ∀ value, node = .other value → Throughout p (.value value)) :
    Throughout p (.node node) := by
  intro found hfound
  rcases ReflTransGen.cases_head hfound with heq | ⟨next, hstep, hrest⟩
  · cases heq
    exact here
  · cases hstep with
    | child hchild => exact hchildren _ hchild found hrest
    | kept => exact hkept _ rfl found hrest

/-- A property holds throughout a value if it holds throughout its items, as the nodes they are read
as or as the values that they are. -/
theorem throughout_value
    (hread : ∀ item ∈ childItems value, ∀ node, Node.ofJson item = .ok node →
      Throughout p (.node node))
    (hunread : ∀ item ∈ childItems value, ∀ mismatch, Node.ofJson item = .error mismatch →
      Throughout p (.value item)) :
    Throughout p (.value value) := by
  intro found hfound
  rcases ReflTransGen.cases_head hfound with heq | ⟨next, hstep, hrest⟩
  · cases heq
  · cases hstep with
    | read hitem hnode => exact hread _ hitem _ hnode found hrest
    | unread hitem hmismatch => exact hunread _ hitem _ hmismatch found hrest

end Throughout

/-- There is no block at or below the place. -/
def Clean (language : String) : Place → Prop := Throughout fun node => ¬ IsBlock language node

/-- An opaque node is clean if its value is. -/
theorem clean_other {value : Json} (h : Clean language (.value value)) :
    Clean language (.node (.other value)) := by
  refine throughout_node (by simp [IsBlock, blockText?]) (by simp) fun kept heq => ?_
  cases heq
  exact h

/-! ## After marking -/

/-- A marker has no block in it, whatever the language it is asked for. -/
theorem clean_marker (content : String) : Clean other (.node (marker language content)) := by
  refine throughout_node (not_isBlock_marker content) (fun child hchild => ?_) fun value heq => ?_
  · rw [marker, Node.childList_tag, List.mem_singleton] at hchild
    subst hchild
    exact throughout_node (by simp [IsBlock, Node.plain, blockText?]) (by simp) (by simp [Node.plain])
  · cases heq

/-- The new items are found where the old ones were. -/
theorem get?_setChildrenJson {value : Json} {items new : List Json}
    (h : value.get? "children" = some (.arr items)) :
    (setChildrenJson new value).get? "children" = some (.arr new) := by
  cases value with
  | obj members =>
    rw [Json.get?] at h
    rw [setChildrenJson, Json.get?, Members.get?_set, if_pos rfl, h, Option.map_some]
  | null | bool _ | num _ | str _ | arr _ => cases h

/-- The items of a value are what they are set to, if it has an array of them. -/
theorem childItems_setChildrenJson {value : Json} {items new : List Json}
    (h : value.get? "children" = some (.arr items)) :
    childItems (setChildrenJson new value) = new :=
  childItems_of_get? (get?_setChildrenJson h)

/-- The objects in the opaque nodes of a tree have their members in order, as those that are read or
made by `Members.ofList` always have. -/
def ValuesOrdered : Node → Prop :=
  Node.Everywhere fun node => ∀ value, node = .other value → value.Ordered

/-- A canonical tree has its values in order. -/
theorem valuesOrdered_of_canonical {node : Node} (h : node.Canonical) : ValuesOrdered node :=
  Node.Everywhere.imp (fun _ hnode value heq => by subst heq; exact hnode.1) h

/-- A marked item leads to no block, whether it can be read or not. -/
theorem clean_markItem {item : Json} (hordered : item.Ordered)
    (hvalue : Clean language (.value (markJson language item).1))
    (hnode : ∀ node, Node.ofJson item = .ok node → Clean language (.node (mark language node))) :
    (∀ node, Node.ofJson (markItem language item).1 = .ok node → Clean language (.node node)) ∧
    ∀ mismatch, Node.ofJson (markItem language item).1 = .error mismatch →
      Clean language (.value (markItem language item).1) := by
  cases hread : Node.ofJson item with
  | error mismatch =>
    have hmarked : markItem language item = markJson language item := by rw [markItem, hread]
    rw [hmarked]
    refine ⟨fun node hmarked => ?_, fun _ _ => hvalue⟩
    -- An item that cannot be read stays so.
    obtain ⟨node, hnode⟩ := exists_ofJson_of_markJson hordered ⟨node, hmarked⟩
    cases hread.symm.trans hnode
  | ok node =>
    rw [ofJson_markItem hordered hread]
    refine ⟨fun marked heq => ?_, fun mismatch heq => ?_⟩
    · cases heq
      exact hnode node hread
    · cases heq

/-- What comes out of the search has no block of the language left. -/
theorem clean_of_search :
    (∀ node : Node, ValuesOrdered node → Clean language (.node (mark language node))) ∧
    ∀ value : Json, value.Ordered → Clean language (.value (markJson language value).1) := by
  refine search_induction (fun node hchildren hother hnode => ?_)
    fun value hitems hnodes hordered => ?_
  · rw [mark]
    cases nodeSearch language node with
    | block content _ h =>
      rw [h]
      exact clean_marker content
    | kept value heq h =>
      subst heq
      rw [h]
      exact clean_other (hother value rfl (hnode.here value rfl))
    | searched kind hkind hblock h =>
      rw [h]
      refine throughout_node (not_isBlock_setChildren hblock) (fun child hchild => ?_)
        fun value heq => ?_
      · -- A node without a child list has no children after marking either.
        have hmem : child ∈ node.childList.map (mark language) := by
          cases node with
          | root | element => exact hchild
          | text | comment | raw | other => cases hchild
        obtain ⟨unmarked, hunmarked, rfl⟩ := List.mem_map.mp hmem
        exact hchildren unmarked hunmarked (hnode.child unmarked hunmarked)
      · cases node with
        | other => cases hkind
        | root | element | text | comment | raw => cases heq
  · cases valueSearch language value with
    | kept hnil h =>
      rw [h]
      exact throughout_value (by simp [hnil]) (by simp [hnil])
    | searched items hget h =>
      rw [h]
      rw [childItems_of_get? hget] at hitems hnodes
      have hmarked : ∀ marked ∈ items.map (fun item => (markItem language item).1),
          (∀ node, Node.ofJson marked = .ok node → Clean language (.node node)) ∧
          ∀ mismatch, Node.ofJson marked = .error mismatch → Clean language (.value marked) := by
        intro marked hmem
        obtain ⟨item, hitem, rfl⟩ := List.mem_map.mp hmem
        have hordered : item.Ordered :=
          ordered_of_mem_childItems hordered (by rwa [childItems_of_get? hget])
        exact clean_markItem hordered (hitems item hitem hordered) fun node hread =>
          hnodes item hitem node hread
            (valuesOrdered_of_canonical (Node.canonical_of_ofJson hordered hread))
      refine throughout_value (fun item hitem => ?_) fun item hitem => ?_
      · rw [childItems_setChildrenJson hget] at hitem
        exact (hmarked item hitem).1
      · rw [childItems_setChildrenJson hget] at hitem
        exact (hmarked item hitem).2

/-- There is no block left in the marked tree. -/
theorem clean_mark {node : Node} (h : ValuesOrdered node) :
    Clean language (.node (mark language node)) :=
  clean_of_search.1 node h

/-! ## Where there is no block -/

/-- Where there is no block, none is found. -/
theorem not_found_of_clean :
    (∀ node : Node, Clean language (.node node) → (markNode language node).2 = false) ∧
    ∀ value : Json, Clean language (.value value) → (markJson language value).2 = false := by
  refine search_induction (fun node hchildren hother hclean => ?_)
    fun value hitems hnodes hclean => ?_
  · cases nodeSearch language node with
    | block content hblock _ => exact absurd (by simp [IsBlock, hblock]) hclean.here
    | kept value heq h =>
      subst heq
      rw [h]
      exact hother value rfl (hclean.step .kept)
    | searched kind _ _ h =>
      rw [h, List.any_eq_false]
      intro child hchild
      simpa using hchildren child hchild (hclean.step (.child hchild))
  · cases valueSearch language value with
    | kept _ h => rw [h]
    | searched items hget h =>
      rw [h, List.any_eq_false]
      intro item hitem
      rw [← childItems_of_get? hget] at hitem
      cases itemSearch language item with
      | unread mismatch hread h =>
        rw [h]
        simpa using hitems item hitem (hclean.step (.unread hitem hread))
      | kept hread h =>
        have hitemClean : Clean language (.node (.other item)) := hclean.step (.read hitem hread)
        rw [h]
        simpa using hitems item hitem (hitemClean.step .kept)
      | read node kind hread _ h =>
        rw [h, hnodes item hitem node hread (hclean.step (.read hitem hread))]
        simp

/-- An item in which no block is found leads to none, given that for what it is searched as. -/
theorem clean_item {item : Json} (hfound : (markItem language item).2 = false)
    (hvalue : (markJson language item).2 = false → Clean language (.value item))
    (hnode : ∀ node, Node.ofJson item = .ok node → (markNode language node).2 = false →
      Clean language (.node node)) :
    (∀ node, Node.ofJson item = .ok node → Clean language (.node node)) ∧
    ∀ mismatch, Node.ofJson item = .error mismatch → Clean language (.value item) := by
  cases itemSearch language item with
  | unread _ hread h =>
    rw [h] at hfound
    refine ⟨fun node heq => ?_, fun _ _ => hvalue hfound⟩
    cases hread.symm.trans heq
  | kept hread h =>
    rw [h] at hfound
    refine ⟨fun node heq => ?_, fun mismatch heq => ?_⟩
    · cases hread.symm.trans heq
      exact clean_other (hvalue hfound)
    · cases hread.symm.trans heq
  | read node _ hread _ h =>
    have hnone : (markNode language node).2 = false := by
      rw [h] at hfound
      split at hfound
      · cases hfound
      · next hnot => simpa using hnot
    refine ⟨fun found heq => ?_, fun mismatch heq => ?_⟩
    · cases hread.symm.trans heq
      exact hnode node hread hnone
    · cases hread.symm.trans heq

/-- Where no block is found, there is none. -/
theorem clean_of_not_found :
    (∀ node : Node, (markNode language node).2 = false → Clean language (.node node)) ∧
    ∀ value : Json, (markJson language value).2 = false → Clean language (.value value) := by
  refine search_induction (fun node hchildren hother hfound => ?_)
    fun value hitems hnodes hfound => ?_
  · cases nodeSearch language node with
    | block content _ h =>
      rw [h] at hfound
      cases hfound
    | kept value heq h =>
      subst heq
      rw [h] at hfound
      exact clean_other (hother value rfl hfound)
    | searched kind hkind hblock h =>
      rw [h, List.any_eq_false] at hfound
      refine throughout_node hblock (fun child hchild => ?_) fun value heq => ?_
      · exact hchildren child hchild (by simpa using hfound child hchild)
      · subst heq
        cases hkind
  · cases valueSearch language value with
    | kept hnil _ => exact throughout_value (by simp [hnil]) (by simp [hnil])
    | searched items hget h =>
      rw [h, List.any_eq_false, ← childItems_of_get? hget] at hfound
      have hclean (item : Json) (hitem : item ∈ childItems value) :=
        clean_item (by simpa using hfound item hitem) (hitems item hitem) (hnodes item hitem)
      exact throughout_value (fun item hitem => (hclean item hitem).1)
        fun item hitem => (hclean item hitem).2

/-- **A block is found exactly where one is reachable.** -/
theorem found_iff {node : Node} :
    (markNode language node).2 = true ↔ ∃ found, Reachable node found ∧ IsBlock language found := by
  have hclean : (markNode language node).2 = false ↔ Clean language (.node node) :=
    ⟨clean_of_not_found.1 node, not_found_of_clean.1 node⟩
  rw [← Bool.not_eq_false, hclean, Clean, Throughout]
  push Not
  rfl

/-- **After marking no block of the language is left in the tree, and marking again changes
nothing.** -/
theorem mark_exhaustive {tree : Node} (h : ValuesOrdered tree) :
    (∀ node, Reachable (mark language tree) node → ¬ IsBlock language node) ∧
    mark language (mark language tree) = mark language tree := by
  have hclean : Clean language (.node (mark language tree)) := clean_mark h
  exact ⟨hclean, mark_eq_self (not_found_of_clean.1 _ hclean)⟩

/-- A block in an element without a tag name, which cannot be read, is reached and marked. -/
theorem mark_exhaustive_unread :
    let block : Node :=
      .tag "pre" [] [.tag "code" (onlyClasses ["language-mermaid"]) [.plain "a"] none] none
    let item : Json := .obj [("children", .arr [block.toJson]), ("type", .str "element")]
    let tree : Node := .root [.other (.obj [("children", .arr [item])])] none []
    (Reachable tree block ∧ IsBlock "mermaid" block) ∧
    (∀ node, Reachable (mark "mermaid" tree) node → ¬ IsBlock "mermaid" node) ∧
    mark "mermaid" (mark "mermaid" tree) = mark "mermaid" tree := by
  intro block item tree
  have hcode : (Node.tag "code" (onlyClasses ["language-mermaid"]) [.plain "a"] none).Canonical :=
    Node.canonical_tag (propertiesFit_onlyClasses _) (by simp [Node.canonical_plain])
  have hblock : block.Canonical := Node.canonical_tag propertiesFit_nil (by simpa using hcode)
  have hplaced : block.Placed := Node.placed_tag (by
    simpa using Node.placed_tag (by simp [Node.placed_plain]))
  have hitem : item.Ordered := by
    have hnames : "children" < "type" := by decide
    simp [item, Json.ordered_obj, Json.ordered_arr, Members.sorted_cons, Members.sorted_nil, hnames,
      Node.ordered_toJson hblock, -String.lt_iff_ltb]
  have htree : ValuesOrdered tree := by
    refine ⟨by simp [tree], ?_⟩
    simp only [tree, Node.childList_root, List.forall_mem_singleton]
    refine ⟨fun value heq => ?_, by simp⟩
    cases heq
    simp [Json.ordered_obj, Json.ordered_arr, Members.sorted_cons, Members.sorted_nil, hitem]
  refine ⟨⟨?_, rfl⟩, mark_exhaustive htree⟩
  have hchild : Step (.node tree) (.node (.other (.obj [("children", .arr [item])]))) :=
    .child List.mem_cons_self
  have hunread : Step (.value (.obj [("children", .arr [item])])) (.value item) :=
    .unread List.mem_cons_self rfl
  have hread : Step (.value item) (.node block) :=
    .read List.mem_cons_self (Node.ofJson_toJson hblock hplaced)
  exact .head hchild (.head .kept (.head hunread (.single hread)))

end Hypermark.Diagram
