import Hypermark.Proofs.Diagram.Local
import Hypermark.Proofs.Diagram.Opaque

/-!
# Marking for two languages

Marking the blocks of one language does not make, hide or change the text of a block of another, unless
that block lies in a block of the first, and then its text is taken over either way.  So two markings
give the same tree in either order, as long as no node is a block of both languages (`mark_comm`).

In opaque nodes the two orders write items back at different moments.  It makes no difference, because
an item that was written back is read as the marked node again.
-/

namespace Hypermark.Diagram

open Hast Relation

variable {first second : String}

/-- Nowhere at or below the place is there a block of both languages. -/
def Apart (first second : String) : Place → Prop :=
  Throughout fun node => ¬ (IsBlock first node ∧ IsBlock second node)

/-! ## Blocks of another language -/

/-- Marking the children of a node for one language keeps what it is for another. -/
theorem blockText?_setChildren_mark (node : Node) :
    blockText? second (node.setChildren (node.childList.map (mark first)))
      = blockText? second node := by
  cases node with
  | element tagName properties children position extra =>
    rw [Node.setChildren, Node.childList_element]
    by_cases hone : ∃ child, children = [child]
    · obtain ⟨child, rfl⟩ := hone
      rw [List.map_singleton, blockText?_element, blockText?_element, codeText?_mark]
    · push Not at hone
      -- Neither list has exactly one node, so neither element is a block.
      have hmarked (child : Node) : children.map (mark first) ≠ [child] := fun hchild => by
        obtain ⟨old, hold, -⟩ := List.map_eq_singleton_iff.mp hchild
        exact hone old hold
      have hnone {nodes : List Node} (h : ∀ child, nodes ≠ [child]) :
          blockText? second (.element tagName properties nodes position extra) = none :=
        blockText?_eq_none h
      rw [hnone hone, hnone hmarked]
  | root | text | comment | raw | other => rfl

/-- A block of one language that is none of the other becomes its marker, in either order. -/
theorem mark_mark_of_blockText? {node : Node} {content : String}
    (hblock : blockText? first node = some content) (hother : ¬ IsBlock second node) :
    mark second (mark first node) = marker first content ∧
    mark first (mark second node) = marker first content := by
  constructor
  · rw [mark_of_blockText? hblock]
    exact mark_eq_self (not_found_of_clean.1 _ (clean_marker content))
  · obtain ⟨_, _, _, _, _, _, _, _, rfl, rfl, _⟩ :=
      isBlock_iff.mp (show IsBlock first node by simp [IsBlock, hblock])
    rw [mark_of_not_isBlock hother rfl]
    refine mark_of_blockText? ?_
    rw [blockText?_setChildren_mark, hblock]

/-- A node that is a block of neither language is marked by marking its children for both. -/
theorem mark_mark_of_not_isBlock {node : Node} {kind : Kind} (hfirst : ¬ IsBlock first node)
    (hsecond : ¬ IsBlock second node) (hkind : node.kind? = some kind) :
    mark second (mark first node)
      = node.setChildren (node.childList.map fun child => mark second (mark first child)) := by
  have hnew : ¬ IsBlock second (node.setChildren (node.childList.map (mark first))) := by
    rwa [IsBlock, blockText?_setChildren_mark]
  rw [mark_of_not_isBlock hfirst hkind]
  cases node with
  | other => cases hkind
  | root | element | text | comment | raw =>
    rw [mark_of_not_isBlock hnew rfl]
    simp [Node.setChildren, Function.comp_def]

/-! ## Values -/

/-- The items that are set last stay. -/
theorem setChildrenJson_setChildrenJson (items new : List Json) (value : Json) :
    setChildrenJson new (setChildrenJson items value) = setChildrenJson new value := by
  cases value with
  | obj members => rw [setChildrenJson, setChildrenJson, Members.set_set, setChildrenJson]
  | null | bool _ | num _ | str _ | arr _ => rfl

/-- A value is marked for both languages item by item. -/
theorem markJson_markJson {value : Json} {items : List Json}
    (h : value.get? "children" = some (.arr items)) :
    (markJson second (markJson first value).1).1
      = setChildrenJson (items.map fun item => (markItem second (markItem first item).1).1) value := by
  rw [markJson_of_get? h, markJson_of_get? (get?_setChildrenJson h), List.map_map,
    setChildrenJson_setChildrenJson]
  rfl

/-- Marking leaves opaque items opaque. -/
theorem isOpaque_markJson {item : Json} (hordered : item.Ordered) (h : IsOpaque item) :
    IsOpaque (markJson first item).1 := by
  intro node hread
  obtain ⟨old, hold⟩ := exists_ofJson_of_markJson hordered ⟨node, hread⟩
  obtain ⟨value, rfl⟩ := Node.kind?_eq_none_iff.mp (h old hold)
  have hmarked : Node.ofJson (markItem first item).1 = .ok (mark first (.other value)) :=
    ofJson_markItem hordered hold
  rw [markItem_of_isOpaque h, hread, mark_other] at hmarked
  cases hmarked
  rfl

/-- An item that is read as a node is marked for both languages as the node is: it is written back if
anything was found in it for one of them. -/
theorem markItem_markItem {item : Json} {node : Node} {kind : Kind} (hordered : item.Ordered)
    (hread : Node.ofJson item = .ok node) (hkind : node.kind? = some kind) :
    (markItem second (markItem first item).1).1 =
      if (markNode first node).2 ∨ (markNode second node).2 then
        (mark second (mark first node)).toJson
      else item := by
  have hitem (language : String) : (markItem language item).1 =
      if (markNode language node).2 then (mark language node).toJson else item := by
    cases itemSearch language item with
    | unread _ herror _ => cases hread.symm.trans herror
    | kept hother _ =>
      cases hread.symm.trans hother
      cases hkind
    | read found _ hfound _ h =>
      cases hread.symm.trans hfound
      rw [h]
      split <;> rfl
  by_cases hfirst : (markNode first node).2
  · have hdecoded : (mark first node).Decoded :=
      ⟨_, ordered_markItem hordered, ofJson_markItem hordered hread⟩
    rw [hitem first, if_pos hfirst, markItem_toJson hdecoded, if_pos (.inl hfirst)]
  · have hsame : mark first node = node := mark_eq_self (by simpa using hfirst)
    rw [hitem first, if_neg hfirst, hitem second, hsame]
    simp [hfirst]

/-! ## Either order -/

/-- An item is marked in either order, given that for what it is searched as. -/
theorem comm_markItem {item : Json} (hordered : item.Ordered)
    (hvalue : IsOpaque item → (markJson second (markJson first item).1).1
      = (markJson first (markJson second item).1).1)
    (hnode : ∀ node, Node.ofJson item = .ok node →
      mark second (mark first node) = mark first (mark second node)) :
    (markItem second (markItem first item).1).1 = (markItem first (markItem second item).1).1 := by
  by_cases hleft : IsOpaque item
  · rw [markItem_of_isOpaque hleft, markItem_of_isOpaque hleft,
      markItem_of_isOpaque (isOpaque_markJson hordered hleft),
      markItem_of_isOpaque (isOpaque_markJson hordered hleft), hvalue hleft]
  · unfold IsOpaque at hleft
    push Not at hleft
    obtain ⟨node, hread, hkind⟩ := hleft
    obtain ⟨kind, hkind⟩ := Option.ne_none_iff_exists'.mp hkind
    rw [markItem_markItem hordered hread hkind, markItem_markItem hordered hread hkind,
      hnode node hread]
    simp only [or_comm]

/-- The two markings give the same in either order, in a tree and in a value. -/
theorem comm_of_search :
    (∀ node : Node, ValuesOrdered node → Apart first second (.node node) →
      mark second (mark first node) = mark first (mark second node)) ∧
    ∀ value : Json, value.Ordered → Apart first second (.value value) →
      (markJson second (markJson first value).1).1
        = (markJson first (markJson second value).1).1 := by
  refine search_induction (fun node hchildren hother hnode hapart => ?_)
    fun value hitems hnodes hordered hapart => ?_
  · -- A block of one language is none of the other, and its marker is neither.
    by_cases hfirst : IsBlock first node
    · obtain ⟨content, hcontent⟩ := Option.isSome_iff_exists.mp hfirst
      have hsecond : ¬ IsBlock second node := fun h => hapart.here ⟨hfirst, h⟩
      obtain ⟨hone, htwo⟩ := mark_mark_of_blockText? hcontent hsecond
      rw [hone, htwo]
    · by_cases hsecond : IsBlock second node
      · obtain ⟨content, hcontent⟩ := Option.isSome_iff_exists.mp hsecond
        obtain ⟨hone, htwo⟩ := mark_mark_of_blockText? hcontent hfirst
        rw [hone, htwo]
      · cases hkind : node.kind? with
        | none =>
          obtain ⟨value, rfl⟩ := Node.kind?_eq_none_iff.mp hkind
          rw [mark_other, mark_other, mark_other, mark_other,
            hother value rfl (hnode.here value rfl) (hapart.step .kept)]
        | some kind =>
          rw [mark_mark_of_not_isBlock hfirst hsecond hkind,
            mark_mark_of_not_isBlock hsecond hfirst hkind]
          congr 1
          refine List.map_congr_left fun child hchild => ?_
          exact hchildren child hchild (hnode.child child hchild) (hapart.step (.child hchild))
  · by_cases harray : ∃ items, value.get? "children" = some (.arr items)
    · obtain ⟨items, hget⟩ := harray
      rw [markJson_markJson hget, markJson_markJson hget]
      congr 1
      refine List.map_congr_left fun item hitem => ?_
      rw [← childItems_of_get? hget] at hitem
      have hordered := ordered_of_mem_childItems hordered hitem
      refine comm_markItem hordered (fun hleft => ?_) fun node hread => ?_
      · -- An opaque item is below the value either as a value or in an opaque node.
        refine hitems item hitem hordered ?_
        cases hread : Node.ofJson item with
        | error mismatch => exact hapart.step (.unread hitem hread)
        | ok node =>
          obtain ⟨kept, rfl⟩ := Node.kind?_eq_none_iff.mp (hleft node hread)
          obtain rfl := Node.eq_of_ofJson_eq_other hread
          exact (hapart.step (.read hitem hread)).step .kept
      · exact hnodes item hitem node hread
          (valuesOrdered_of_canonical (Node.canonical_of_ofJson hordered hread))
          (hapart.step (.read hitem hread))
    · push Not at harray
      have hsame (language : String) : (markJson language value).1 = value := by
        cases valueSearch language value with
        | searched items hget _ => exact absurd hget (harray items)
        | kept _ h => rw [h]
      rw [hsame, hsame, hsame]

/-- **The blocks of two languages are marked to the same tree in either order, if no reachable node is
a block of both.** -/
theorem mark_comm {tree : Node} (h : ValuesOrdered tree)
    (hapart : ∀ node, Reachable tree node → ¬ (IsBlock first node ∧ IsBlock second node)) :
    mark second (mark first tree) = mark first (mark second tree) :=
  comm_of_search.1 tree h hapart

/-- A block stands in the code of a block of another language, and again in an opaque node. -/
theorem mark_comm_nested :
    let block (language : String) (content : List Node) : Node :=
      .tag "pre" [] [.tag "code" (onlyClasses ["language-" ++ language]) content none] none
    let inner : Node := block "mermaid" [.plain "a"]
    let figure : Node := .other (.obj [("children", .arr [inner.toJson])])
    let tree : Node := .root [block "dot" [inner, .plain "b"], figure] none []
    (∀ node, Reachable tree node → ¬ (IsBlock "dot" node ∧ IsBlock "mermaid" node)) ∧
    mark "mermaid" (mark "dot" tree) = mark "dot" (mark "mermaid" tree) := by
  intro block inner figure tree
  have htag {tagName : String} {properties : Properties} {children : List Node}
      (here : ¬ (IsBlock "dot" (.tag tagName properties children none) ∧
        IsBlock "mermaid" (.tag tagName properties children none)))
      (h : ∀ child ∈ children, Apart "dot" "mermaid" (.node child)) :
      Apart "dot" "mermaid" (.node (.tag tagName properties children none)) :=
    throughout_node here h (by simp [Node.tag])
  have hplain (value : String) : Apart "dot" "mermaid" (.node (.plain value)) :=
    throughout_node (by simp [IsBlock, Node.plain, blockText?]) (by simp) (by simp [Node.plain])
  have hinner : Apart "dot" "mermaid" (.node inner) :=
    htag (by decide) (List.forall_mem_singleton.mpr
      (htag (by decide) (List.forall_mem_singleton.mpr (hplain "a"))))
  have houter : Apart "dot" "mermaid" (.node (block "dot" [inner, .plain "b"])) :=
    htag (by decide) (List.forall_mem_singleton.mpr (htag (by decide)
      (List.forall_mem_cons.mpr ⟨hinner, List.forall_mem_singleton.mpr (hplain "b")⟩)))
  have hread : Node.ofJson inner.toJson = .ok inner := rfl
  have hfigure : Apart "dot" "mermaid" (.node figure) := by
    refine throughout_node (by simp [figure, IsBlock, blockText?]) (by simp [figure]) ?_
    intro value heq
    obtain rfl := Node.other.inj heq
    refine throughout_value (fun item hitem node hnode => ?_) fun item hitem mismatch herror => ?_
    · obtain rfl : item = inner.toJson := List.mem_singleton.mp hitem
      cases hread.symm.trans hnode
      exact hinner
    · obtain rfl : item = inner.toJson := List.mem_singleton.mp hitem
      cases hread.symm.trans herror
  have hapart : Apart "dot" "mermaid" (.node tree) :=
    throughout_node (by simp [tree, IsBlock, blockText?])
      (List.forall_mem_cons.mpr ⟨houter, List.forall_mem_singleton.mpr hfigure⟩) (by simp [tree])
  have hcanonical {language : String} {content : List Node} (h : ∀ node ∈ content, node.Canonical) :
      (block language content).Canonical :=
    Node.canonical_tag propertiesFit_nil
      (List.forall_mem_singleton.mpr (Node.canonical_tag (propertiesFit_onlyClasses _) h))
  have hcanonicalInner : inner.Canonical :=
    hcanonical (List.forall_mem_singleton.mpr (Node.canonical_plain "a"))
  have hcanonicalOuter : (block "dot" [inner, .plain "b"]).Canonical :=
    hcanonical (List.forall_mem_cons.mpr
      ⟨hcanonicalInner, List.forall_mem_singleton.mpr (Node.canonical_plain "b")⟩)
  have hcanonicalFigure : figure.Canonical := by
    refine Node.everywhere_of_childless rfl ⟨?_, rfl⟩
    simp [Json.ordered_obj, Json.ordered_arr, Members.sorted_cons, Members.sorted_nil,
      Node.ordered_toJson hcanonicalInner]
  have hordered : ValuesOrdered tree :=
    valuesOrdered_of_canonical ⟨extraFits_nil .root, List.forall_mem_cons.mpr
      ⟨hcanonicalOuter, List.forall_mem_singleton.mpr hcanonicalFigure⟩⟩
  exact ⟨hapart, mark_comm hordered hapart⟩

end Hypermark.Diagram
