import Hypermark.Proofs.Diagram.Local
import Hypermark.Proofs.Diagram.Opaque
import Hypermark.Proofs.Hast.Same

/-!
# The verdict of the search

The search tells beside its result whether there was a block.  The verdict is exact
(`verdict_iff_changed`): it is that there was one exactly when the result differs from what was searched,
by more than the sign of a zero, and an item of a `children` array is written back exactly when there
is a block in it.

A result that is the same as what was searched would get the same verdict if it were searched again,
since a zero is no part of a block (`verdict_unsigned`); but there is no block left in it.
-/

namespace Hypermark.Diagram

open Hast Relation

variable {language : String}

/-! ## Zeros -/

/-- The text found does not depend on the signs of zeros. -/
theorem codeText?_unsigned (node : Node) :
    codeText? language node.unsigned = codeText? language node := by
  cases node with
  | element tagName properties children =>
    have hclass : hasClass properties.unsigned = hasClass properties :=
      funext fun name => by rw [hasClass, classNames_unsigned, hasClass]
    rw [Node.unsigned, codeText?, codeText?, hclass, Node.textContentAll_unsignedAll]
  | root | text | comment | raw | other => rfl

/-- So it is for the text of a block. -/
theorem blockText?_unsigned (node : Node) :
    blockText? language node.unsigned = blockText? language node := by
  cases node with
  | element tagName properties children position extra =>
    match children with
    | [] => rfl
    | [child] =>
      rw [Node.unsigned, Node.unsignedAll, Node.unsignedAll, blockText?_element,
        blockText?_element, codeText?_unsigned]
    | first :: second :: rest =>
      rw [blockText?_eq_none (by simp [Node.childList_unsigned]), blockText?_eq_none (by simp)]
  | root | text | comment | raw | other => rfl

/-- A zero is no part of a block. -/
theorem isBlock_unsigned {node : Node} : IsBlock language node.unsigned ↔ IsBlock language node := by
  rw [IsBlock, blockText?_unsigned, IsBlock]

/-- The items of a value without signs of zeros are its items without them. -/
theorem childItems_unsigned (value : Json) :
    childItems value.unsigned = (childItems value).map Json.unsigned := by
  rw [childItems, childItems, Json.get?_unsigned]
  cases value.get? "children" with
  | none => rfl
  | some found =>
    cases found with
    | arr items => rw [Option.map_some, Json.unsigned_arr]
    | null | bool _ | num _ | str _ | obj _ => rfl

/-- Two tests that agree on the items of a list agree on whether any of them passes. -/
theorem any_congr_of_mem {α : Type} {items : List α} {p q : α → Bool}
    (h : ∀ item ∈ items, p item = q item) : items.any p = items.any q := by
  rw [Bool.eq_iff_iff, List.any_eq_true, List.any_eq_true]
  exact exists_congr fun item => and_congr_right fun hitem => by rw [h item hitem]

/-! ## Verdicts -/

/-- The verdict on a value is the one on the items of its `children` array. -/
theorem verdict_markJson (value : Json) :
    (markJson language value).2 = (childItems value).any fun item => (markItem language item).2 := by
  cases valueSearch language value with
  | searched items hitems h => rw [h, childItems_of_get? hitems]
  | kept hitems h => rw [h, hitems, List.any_nil]

/-- An opaque node is changed if its value is. -/
theorem verdict_other (value : Json) :
    (markNode language (.other value)).2 = (markJson language value).2 := by
  rw [markNode.eq_def]
  rfl

/-- The verdict on a node is whether it is a block, or that on its children or on the value that it
keeps. -/
theorem verdict_markNode {node : Node} {kind : Kind} (hkind : node.kind? = some kind) :
    (markNode language node).2
      = (decide (IsBlock language node) ||
          node.childList.any fun child => (markNode language child).2) := by
  cases nodeSearch language node with
  | block content hblock h =>
    have hblock : IsBlock language node := by simp [IsBlock, hblock]
    rw [h, decide_eq_true hblock, Bool.true_or]
  | kept value hnode h =>
    subst hnode
    cases hkind
  | searched kind hkind hblock h => rw [h, decide_eq_false hblock, Bool.false_or]

/-- The verdict on an item is that on the node it is read as, if it is read as one to look into, or
else that on the item itself. -/
theorem verdict_markItem (item : Json) : (markItem language item).2 =
    match Node.ofJson item with
    | .ok node =>
      if node.kind?.isSome then (markNode language node).2 else (markJson language item).2
    | .error _ => (markJson language item).2 := by
  cases itemSearch language item with
  | unread mismatch hread h => rw [h, hread]
  | kept hread h =>
    rw [h, hread]
    rfl
  | read node kind hread hkind h =>
    rw [h, hread]
    dsimp only
    rw [hkind, Option.isSome_some, if_pos rfl]
    cases (markNode language node).2 <;> rfl

/-- **The signs of zeros make no difference to the verdict.** -/
theorem verdict_unsigned :
    (∀ node : Node, (markNode language node.unsigned).2 = (markNode language node).2) ∧
    ∀ value : Json, (markJson language value.unsigned).2 = (markJson language value).2 := by
  refine search_induction (fun node hchildren hother => ?_) fun value hitems hnodes => ?_
  · cases hkind : node.kind? with
    | none =>
      obtain ⟨value, rfl⟩ := Node.kind?_eq_none_iff.mp hkind
      rw [Node.unsigned, verdict_other, verdict_other, hother value rfl]
    | some kind =>
      rw [verdict_markNode hkind, verdict_markNode ((Node.kind?_unsigned node).trans hkind),
        Node.childList_unsigned, List.any_map]
      congr 1
      · exact decide_eq_decide.mpr isBlock_unsigned
      · exact any_congr_of_mem hchildren
  · rw [verdict_markJson, verdict_markJson, childItems_unsigned, List.any_map]
    refine any_congr_of_mem fun item hitem => ?_
    have halong := Node.along_ofJson item
    rw [Function.comp_apply, verdict_markItem, verdict_markItem]
    cases hread : Node.ofJson item with
    | error mismatch =>
      obtain ⟨other, hother⟩ := halong.exists_eq_error hread
      rw [hother]
      exact hitems item hitem
    | ok node =>
      rw [halong.eq_ok hread]
      dsimp only
      rw [Node.kind?_unsigned, hnodes item hitem node hread, hitems item hitem]

/-! ## Exactness -/

/-- A tree that stays the same gets no verdict. -/
theorem verdict_iff_not_same {node : Node} (h : ValuesOrdered node) :
    (markNode language node).2 = true ↔ ¬ (mark language node).Same node := by
  constructor
  · intro hfound hsame
    -- The result, searched again, would get the verdict of the tree; but there is no block left in it.
    have hnone : (markNode language (mark language node)).2 = false :=
      not_found_of_clean.1 _ (clean_mark h)
    rw [← verdict_unsigned.1, hsame, verdict_unsigned.1, hfound] at hnone
    cases hnone
  · intro hchanged
    by_contra hnone
    rw [mark_eq_self (Bool.eq_false_iff.mpr hnone)] at hchanged
    exact hchanged (.refl node)

/-- A value that stays the same gets no verdict. -/
theorem verdict_markJson_iff_not_same {value : Json} (h : value.Ordered) :
    (markJson language value).2 = true ↔ ¬ (markJson language value).1.Same value := by
  constructor
  · intro hfound hsame
    have hnone : (markJson language (markJson language value).1).2 = false :=
      not_found_of_clean.2 _ (clean_of_search.2 value h)
    rw [← verdict_unsigned.2, hsame, verdict_unsigned.2, hfound] at hnone
    cases hnone
  · intro hchanged
    by_contra hnone
    rw [eq_self_of_not_found.2 value (Bool.eq_false_iff.mpr hnone)] at hchanged
    exact hchanged (.refl value)

/-! ## Items -/

/-- The place that an item of a `children` array leads to. -/
def itemPlace (item : Json) : Place :=
  match Node.ofJson item with
  | .ok node => .node node
  | .error _ => .value item

/-- An item stays as it is, and is not even brought into another form, where it leads to no block; and
where it leads to one it changes. -/
structure ItemExact (language : String) (item marked : Json) : Prop where
  eq_of_clean (h : Clean language (itemPlace item)) : marked = item
  changed (h : ¬ Clean language (itemPlace item)) : ¬ marked.Same item

/-- The verdict on an item is whether it leads to a block. -/
theorem verdict_markItem_eq_false_iff {item : Json} :
    (markItem language item).2 = false ↔ Clean language (itemPlace item) := by
  constructor
  · intro hfound
    obtain ⟨hnode, hvalue⟩ := clean_item hfound (clean_of_not_found.2 item) fun node _ =>
      clean_of_not_found.1 node
    rw [itemPlace]
    split
    · next node hread => exact hnode node hread
    · next mismatch hread => exact hvalue mismatch hread
  · intro hclean
    rw [itemPlace] at hclean
    cases itemSearch language item with
    | unread mismatch hread hmark =>
      rw [hread] at hclean
      rw [hmark]
      exact not_found_of_clean.2 item hclean
    | kept hread hmark =>
      rw [hread] at hclean
      rw [hmark]
      exact not_found_of_clean.2 item (hclean.step .kept)
    | read node kind hread hkind hmark =>
      rw [hread] at hclean
      rw [hmark, not_found_of_clean.1 node hclean]
      rfl

/-- An item is written back by the verdict only. -/
theorem markItem_eq_self {item : Json} (h : (markItem language item).2 = false) :
    (markItem language item).1 = item := by
  cases itemSearch language item with
  | unread mismatch hread hmark | kept hread hmark =>
    rw [hmark] at h ⊢
    exact eq_self_of_not_found.2 item h
  | read node kind hread hkind hmark =>
    rw [hmark] at h ⊢
    split at h
    · cases h
    · next hnot => rw [if_neg hnot]

/-- An item that is written back is not the same: it is read as another node. -/
theorem not_same_markItem {item : Json} (hordered : item.Ordered)
    (h : (markItem language item).2 = true) : ¬ (markItem language item).1.Same item := by
  cases itemSearch language item with
  | unread mismatch hread hmark | kept hread hmark =>
    rw [hmark] at h ⊢
    exact (verdict_markJson_iff_not_same hordered).mp h
  | read node kind hread hkind hmark =>
    have hfound : (markNode language node).2 = true := by
      by_contra hnot
      rw [hmark, if_neg hnot] at h
      cases h
    have hvalues := valuesOrdered_of_canonical (Node.canonical_of_ofJson hordered hread)
    have hmarked : Node.ofJson (markItem language item).1 = .ok (mark language node) :=
      ofJson_markItem hordered hread
    intro hsame
    have hunsigned := (Node.along_ofJson _).eq_ok hmarked
    rw [hsame, (Node.along_ofJson item).eq_ok hread] at hunsigned
    exact (verdict_iff_not_same hvalues).mp hfound (Except.ok.inj hunsigned).symm

/-- Marking an item is exact in this sense. -/
theorem itemExact_markItem {item : Json} (h : item.Ordered) :
    ItemExact language item (markItem language item).1 where
  eq_of_clean hclean := markItem_eq_self (verdict_markItem_eq_false_iff.mpr hclean)
  changed hblock := by
    refine not_same_markItem h ?_
    rwa [← Bool.not_eq_false, verdict_markItem_eq_false_iff]

/-- **The verdict is exact.** It is that there was a block exactly when the tree, or the value, is not
the same any more, and so it is for each item of a `children` array: nothing in it changes unless there
is a block in it. -/
theorem verdict_iff_changed :
    (∀ node, ValuesOrdered node →
      ((markNode language node).2 = true ↔ ¬ (markNode language node).1.Same node)) ∧
    ∀ value : Json, value.Ordered →
      ((markJson language value).2 = true ↔ ¬ (markJson language value).1.Same value) ∧
      List.Forall₂ (ItemExact language) (childItems value)
        (childItems (markJson language value).1) := by
  refine ⟨fun node h => verdict_iff_not_same h, fun value h =>
    ⟨verdict_markJson_iff_not_same h, ?_⟩⟩
  rw [childItems_markJson, List.forall₂_map_right_iff, List.forall₂_same]
  intro item hitem
  exact itemExact_markItem (ordered_of_mem_childItems h hitem)

/-- A block in an element without a tag name, which cannot be read, is told of; the element beside it,
which would be written in another form, stays as it is. -/
theorem verdict_iff_changed_unread :
    let block : Node :=
      .tag "pre" [] [.tag "code" (onlyClasses ["language-mermaid"]) [.plain "a"] none] none
    let unread : Json := .obj [("children", .arr [block.toJson]), ("type", .str "element")]
    let bare : Json := .obj [("tagName", .str "p"), ("type", .str "element")]
    let value : Json := .obj [("children", .arr [unread, bare])]
    value.Ordered ∧ (markJson "mermaid" value).2 = true ∧
    ¬ (markJson "mermaid" value).1.Same value ∧
    List.Forall₂ (ItemExact "mermaid") [unread, bare] (childItems (markJson "mermaid" value).1) ∧
    ValuesOrdered (.other value) ∧ ¬ (markNode "mermaid" (.other value)).1.Same (.other value) := by
  intro block unread bare value
  have hcode : (Node.tag "code" (onlyClasses ["language-mermaid"]) [.plain "a"] none).Canonical :=
    Node.canonical_tag (propertiesFit_onlyClasses _) (by simp [Node.canonical_plain])
  have hblock : block.Canonical := Node.canonical_tag propertiesFit_nil (by simpa using hcode)
  have hplaced : block.Placed := Node.placed_tag (by
    simpa using Node.placed_tag (by simp [Node.placed_plain]))
  have hordered : value.Ordered := by
    have h₁ : "children" < "type" := by decide
    have h₂ : "tagName" < "type" := by decide
    simp [value, unread, bare, Json.ordered_obj, Json.ordered_arr, Members.sorted_cons,
      Members.sorted_nil, h₁, h₂, Node.ordered_toJson hblock, -String.lt_iff_ltb]
  have hvalues : ValuesOrdered (.other value) := by
    refine Node.everywhere_of_childless rfl fun kept heq => ?_
    cases heq
    exact hordered
  have hfound : (markJson "mermaid" value).2 = true := by
    have hunread : Step (.value value) (.value unread) := .unread List.mem_cons_self rfl
    have hread : Step (.value unread) (.node block) :=
      .read List.mem_cons_self (Node.ofJson_toJson hblock hplaced)
    rw [← Bool.not_eq_false]
    intro hnone
    exact clean_of_not_found.2 value hnone block (.head hunread (.single hread)) rfl
  obtain ⟨hnode, hvalue⟩ := @verdict_iff_changed "mermaid"
  obtain ⟨hsame, hitems⟩ := hvalue value hordered
  refine ⟨hordered, hfound, hsame.mp hfound, hitems, hvalues, (hnode _ hvalues).mp ?_⟩
  rw [verdict_other]
  exact hfound

end Hypermark.Diagram
