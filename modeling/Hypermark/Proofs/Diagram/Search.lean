import Hypermark.Proofs.Hast.Canonical

/-!
# The search for blocks

The search goes through a tree and the values in it by turns.  Here it is described step by step:
what becomes of a node, of a value and of an item of a `children` array (`nodeSearch`,
`valueSearch`, `itemSearch`).  Everything else about the search follows from these cases by
`search_induction`.

* `mark_eq_self`: where no block is found, nothing changes.
* `not_isBlock_setChildren`: marking the children of a node does not make it a block.
-/

namespace Hypermark.Diagram

open Hast

variable {language other : String}

/-! ## Induction -/

/-- What holds of a node when it holds of its children and of the value it keeps, and of a value
when it holds of the items of its `children` array and of the nodes they are read as, holds of
everything. -/
theorem search_induction {P : Node → Prop} {Q : Json → Prop}
    (hnode : ∀ node : Node, (∀ child ∈ node.childList, P child) →
      (∀ value, node = .other value → Q value) → P node)
    (hvalue : ∀ value, (∀ item ∈ childItems value, Q item) →
      (∀ item ∈ childItems value, ∀ node, Node.ofJson item = .ok node → P node) → Q value) :
    (∀ node, P node) ∧ ∀ value, Q value := by
  suffices ∀ n, (∀ value : Json, value.weight = n → Q value) ∧
      ∀ node : Node, node.weight = n → P node from
    ⟨fun node => (this _).2 node rfl, fun value => (this _).1 value rfl⟩
  intro n
  induction n using Nat.strong_induction_on with
  | _ n ih =>
    -- Values come first: an opaque node weighs as much as its value.
    have hvalues : ∀ value : Json, value.weight = n → Q value := by
      rintro value rfl
      refine hvalue value (fun item hitem => ?_) fun item hitem node hread => ?_
      · exact (ih _ (weight_lt_of_mem_childItems hitem)).1 item rfl
      · have hweight : node.weight < value.weight :=
          (weight_ofJson_le item node hread).trans_lt (weight_lt_of_mem_childItems hitem)
        exact (ih _ hweight).2 node rfl
    refine ⟨hvalues, ?_⟩
    rintro node rfl
    refine hnode node (fun child hchild => ?_) fun value hother => ?_
    · exact (ih _ (Node.weight_lt_of_mem_childList hchild)).2 child rfl
    · subst hother
      exact hvalues value rfl

/-! ## Steps of the search -/

/-- Marks the blocks in an item of a `children` array, and tells whether there was one. -/
def markItem (language : String) (item : Json) : Json × Bool :=
  match Node.ofJson item with
  | .error _ => markJson language item
  | .ok (.other _) => markJson language item
  | .ok node =>
    if (markNode language node).2 then ((mark language node).toJson, true) else (item, false)

/-- The items are searched one by one, and there was a block if there was one in any. -/
theorem markItems_cons (item : Json) (rest : List Json) :
    markItems language (item :: rest) =
      ((markItem language item).1 :: (markItems language rest).1,
        (markItem language item).2 || (markItems language rest).2) := by
  rw [markItems.eq_def, markItem]
  dsimp only
  split
  · next hread =>
    rw [hread]
  · next hread =>
    rw [hread]
  · next node _ hread =>
    rw [hread]
    cases hmarked : markNode language node with
    | mk marked found =>
      have hmark : mark language node = marked := by rw [mark, hmarked]
      cases found with
      | true => simp only [hmarked, hmark, if_true]
      | false => simp [hmarked]

/-- A list of items is searched item by item. -/
theorem markItems_eq (items : List Json) :
    markItems language items = (items.map fun item => (markItem language item).1,
      items.any fun item => (markItem language item).2) := by
  induction items with
  | nil => rw [markItems]; rfl
  | cons item rest ih => rw [markItems_cons, ih]; rfl

/-- A list of nodes is searched node by node. -/
theorem markNodes_eq (nodes : List Node) :
    markNodes language nodes
      = (nodes.map (mark language), nodes.any fun node => (markNode language node).2) := by
  induction nodes with
  | nil => rw [markNodes]; rfl
  | cons node rest ih => rw [markNodes, ih]; rfl

/-- What becomes of a node. -/
inductive NodeSearch (language : String) (node : Node) : Prop
  /-- A block becomes a marker. -/
  | block (content : String) (hblock : blockText? language node = some content)
    (h : markNode language node = (marker language content, true))
  /-- The value of an opaque node is searched. -/
  | kept (value : Json) (hnode : node = .other value)
    (h : markNode language node = (.other (markJson language value).1, (markJson language value).2))
  /-- The children of any other node are searched. -/
  | searched (kind : Kind) (hkind : node.kind? = some kind) (hblock : ¬ IsBlock language node)
    (h : markNode language node = (node.setChildren (node.childList.map (mark language)),
      node.childList.any fun child => (markNode language child).2))

/-- Marking does to each node one of the things listed. -/
theorem nodeSearch (language : String) (node : Node) : NodeSearch language node := by
  cases htext : blockText? language node with
  | some content => exact .block content htext (by rw [markNode.eq_def, htext])
  | none =>
    have hblock : ¬ IsBlock language node := by simp [IsBlock, htext]
    cases node with
    | other value => exact .kept value rfl (by rw [markNode.eq_def]; rfl)
    | root | element =>
      refine .searched _ rfl hblock ?_
      rw [markNode.eq_def, htext]
      simp only [markNodes_eq]
      rfl
    | text | comment | raw =>
      refine .searched _ rfl hblock ?_
      rw [markNode.eq_def, htext]
      rfl

/-- What becomes of a value. -/
inductive ValueSearch (language : String) (value : Json) : Prop
  /-- The items of its `children` array are searched. -/
  | searched (items : List Json) (hitems : value.get? "children" = some (.arr items))
    (h : markJson language value
      = (setChildrenJson (items.map fun item => (markItem language item).1) value,
        items.any fun item => (markItem language item).2))
  /-- A value without such an array is kept. -/
  | kept (hitems : childItems value = []) (h : markJson language value = (value, false))

/-- Marking does to each value one of the things listed. -/
theorem valueSearch (language : String) (value : Json) : ValueSearch language value := by
  by_cases harray : ∃ items, value.get? "children" = some (.arr items)
  · obtain ⟨items, hitems⟩ := harray
    refine .searched items hitems ?_
    rw [markJson.eq_def]
    split
    · next found hfound =>
      cases hfound.symm.trans hitems
      rw [markItems_eq]
    · next hnone => exact absurd hitems (hnone items)
  · push Not at harray
    refine .kept ?_ ?_
    · unfold childItems
      split
      · next items hitems => exact absurd hitems (harray items)
      · rfl
    · rw [markJson.eq_def]
      split
      · next items hitems => exact absurd hitems (harray items)
      · rfl

/-- Setting the items that are there changes nothing. -/
theorem setChildrenJson_self {value : Json} {items : List Json}
    (h : value.get? "children" = some (.arr items)) : setChildrenJson items value = value := by
  cases value with
  | obj members => rw [setChildrenJson, Members.set_of_get? h]
  | null | bool _ | num _ | str _ | arr _ => cases h

/-- What becomes of an item. -/
inductive ItemSearch (language : String) (item : Json) : Prop
  /-- An item that cannot be read is searched as the value it is in. -/
  | unread (mismatch : Mismatch) (hread : Node.ofJson item = .error mismatch)
    (h : markItem language item = markJson language item)
  /-- So is an item that is read as an opaque node. -/
  | kept (hread : Node.ofJson item = .ok (.other item))
    (h : markItem language item = markJson language item)
  /-- Any other item is written back if a block is found in its node. -/
  | read (node : Node) (kind : Kind) (hread : Node.ofJson item = .ok node)
    (hkind : node.kind? = some kind)
    (h : markItem language item =
      if (markNode language node).2 then ((mark language node).toJson, true) else (item, false))

/-- Marking does to each item one of the things listed. -/
theorem itemSearch (language : String) (item : Json) : ItemSearch language item := by
  cases hread : Node.ofJson item with
  | error mismatch => exact .unread mismatch hread (by rw [markItem, hread])
  | ok node =>
    cases hkind : node.kind? with
    | none =>
      obtain ⟨value, rfl⟩ := Node.kind?_eq_none_iff.mp hkind
      obtain rfl := Node.eq_of_ofJson_eq_other hread
      exact .kept hread (by rw [markItem, hread])
    | some kind =>
      refine .read node kind hread hkind ?_
      rw [markItem, hread]
      cases node with
      | other => cases hkind
      | root | element | text | comment | raw => rfl

/-- An opaque node stays opaque, and its value is searched. -/
theorem mark_other (value : Json) :
    mark language (.other value) = .other (markJson language value).1 := by
  rw [mark, markNode.eq_def]
  rfl

/-- In a value with an array of children each item is marked. -/
theorem markJson_of_get? {value : Json} {items : List Json}
    (h : value.get? "children" = some (.arr items)) :
    (markJson language value).1
      = setChildrenJson (items.map fun item => (markItem language item).1) value := by
  cases valueSearch language value with
  | searched found hfound hmarked =>
    cases hfound.symm.trans h
    rw [hmarked]
  | kept hitems hmarked =>
    rw [childItems_of_get? h] at hitems
    subst hitems
    rw [hmarked, List.map_nil, setChildrenJson_self h]

/-- A block becomes a marker with its text. -/
theorem mark_of_blockText? {node : Node} {content : String}
    (h : blockText? language node = some content) :
    mark language node = marker language content := by
  rw [mark, markNode.eq_def, h]

/-- A node that is read and is no block keeps all but its children, and these are marked. -/
theorem mark_of_not_isBlock {node : Node} {kind : Kind} (h : ¬ IsBlock language node)
    (hkind : node.kind? = some kind) :
    mark language node = node.setChildren (node.childList.map (mark language)) := by
  cases nodeSearch language node with
  | block content hblock => exact absurd (by simp [IsBlock, hblock]) h
  | kept value hnode =>
    subst hnode
    cases hkind
  | searched kind _ _ hmark => rw [mark, hmark]

/-! ## Where nothing is found -/

/-- A list is unchanged by what changes none of its items. -/
theorem map_eq_self {α : Type} {f : α → α} {items : List α} (h : ∀ item ∈ items, f item = item) :
    items.map f = items := by
  conv_rhs => rw [← List.map_id items]
  exact List.map_congr_left h

/-- Setting the children that are there changes nothing. -/
theorem setChildren_childList (node : Node) : node.setChildren node.childList = node := by
  cases node <;> rfl

/-- A node or a value where no block is found is kept as it is. -/
theorem eq_self_of_not_found :
    (∀ node : Node, (markNode language node).2 = false → mark language node = node) ∧
    ∀ value : Json, (markJson language value).2 = false → (markJson language value).1 = value := by
  refine search_induction (fun node hchildren hother hfound => ?_)
    fun value hitems hnodes hfound => ?_
  · rw [mark]
    cases nodeSearch language node with
    | block content _ h =>
      rw [h] at hfound
      cases hfound
    | kept value hnode h =>
      subst hnode
      rw [h] at hfound ⊢
      rw [hother value rfl hfound]
    | searched kind _ _ h =>
      rw [h, List.any_eq_false] at hfound
      have hsame : ∀ child ∈ node.childList, mark language child = child := fun child hchild =>
        hchildren child hchild (by simpa using hfound child hchild)
      rw [h, map_eq_self hsame, setChildren_childList]
  · cases valueSearch language value with
    | kept _ h => rw [h]
    | searched items hget h =>
      rw [h, List.any_eq_false] at hfound
      rw [childItems_of_get? hget] at hitems hnodes
      have hsame : ∀ item ∈ items, (markItem language item).1 = item := by
        intro item hitem
        have hnone : (markItem language item).2 = false := by simpa using hfound item hitem
        cases itemSearch language item with
        | unread _ _ h | kept _ h =>
          rw [h] at hnone ⊢
          exact hitems item hitem hnone
        | read node _ hread _ h =>
          -- Only the verdict makes the search write an item back.
          rw [h] at hnone ⊢
          split at hnone
          · cases hnone
          · next hnot => rw [if_neg hnot]
      rw [h, map_eq_self hsame, setChildrenJson_self hget]

/-- **Where no block is found, nothing changes.** -/
theorem mark_eq_self {node : Node} (h : (markNode language node).2 = false) :
    mark language node = node :=
  eq_self_of_not_found.1 node h

/-! ## Blocks and marking -/

/-- A marker is no block of any language: its only child is a text. -/
theorem not_isBlock_marker (content : String) : ¬ IsBlock other (marker language content) := by
  simp [IsBlock, marker, Node.tag, Node.plain, blockText?]

/-- A block is a `pre` whose only child is a `code` with the class of the language. -/
theorem isBlock_iff {node : Node} : IsBlock language node ↔
    ∃ properties code position extra codeProperties content codePosition codeExtra,
      node = .element "pre" properties [code] position extra ∧
      code = .element "code" codeProperties content codePosition codeExtra ∧
      hasClass codeProperties (languageClass language) := by
  constructor
  · intro h
    obtain ⟨content, hcontent⟩ := Option.isSome_iff_exists.mp h
    unfold blockText? at hcontent
    split at hcontent
    · split at hcontent
      · next hnames =>
        obtain ⟨rfl, rfl, hclass⟩ := hnames
        exact ⟨_, _, _, _, _, _, _, _, rfl, rfl, hclass⟩
      · cases hcontent
    · cases hcontent
  · rintro ⟨_, _, _, _, _, _, _, _, rfl, rfl, hclass⟩
    simp [IsBlock, blockText?, hclass]

/-- An element with another tag than `pre` is no block. -/
theorem not_isBlock_of_tagName {tagName : String} {properties : Properties} {children : List Node}
    {position : Option Position} {extra : Members Json} (h : tagName ≠ "pre") :
    ¬ IsBlock language (.element tagName properties children position extra) := by
  intro hblock
  obtain ⟨_, _, _, _, _, _, _, _, heq, _⟩ := isBlock_iff.mp hblock
  cases heq
  exact h rfl

/-- An element that is not a `pre` comes from an element that differs in its children only. -/
theorem exists_of_mark_eq_element {node : Node} {tagName : String} {properties : Properties}
    {children : List Node} {position : Option Position} {extra : Members Json}
    (hmark : mark language node = .element tagName properties children position extra)
    (hname : tagName ≠ "pre") :
    ∃ children, node = .element tagName properties children position extra := by
  rw [mark] at hmark
  cases nodeSearch language node with
  | block content _ h =>
    rw [h] at hmark
    cases hmark
    exact absurd rfl hname
  | kept value _ h =>
    rw [h] at hmark
    cases hmark
  | searched kind hkind _ h =>
    rw [h] at hmark
    cases node with
    | element =>
      cases hmark
      exact ⟨_, rfl⟩
    | root | text | comment | raw | other => cases hmark

/-- **Marking the children of a node does not make it a block.** -/
theorem not_isBlock_setChildren {node : Node} (h : ¬ IsBlock language node) :
    ¬ IsBlock language (node.setChildren (node.childList.map (mark language))) := by
  intro hblock
  obtain ⟨_, code, _, _, codeProperties, content, _, _, hnode, hcode, hclass⟩ :=
    isBlock_iff.mp hblock
  cases node with
  | element tagName properties children position extra =>
    simp only [Node.setChildren, Node.childList_element, Node.element.injEq] at hnode
    obtain ⟨rfl, rfl, hchildren, rfl, rfl⟩ := hnode
    -- The `code` in the marked node is no marker, so it was there before, with the same classes.
    obtain ⟨child, rfl, hchild⟩ := List.map_eq_singleton_iff.mp hchildren
    obtain ⟨inner, rfl⟩ := exists_of_mark_eq_element (hchild.trans hcode) (by decide)
    exact h (isBlock_iff.mpr ⟨_, _, _, _, _, _, _, _, rfl, rfl, hclass⟩)
  | root | text | comment | raw | other => cases hnode

end Hypermark.Diagram
