import Hypermark.Proofs.Diagram.Reach

/-!
# What marking leaves alone in opaque nodes

The search follows `children` arrays from item to item as long as the items are kept as JSON: because
they are read as opaque nodes, or because they cannot be read at all (`Leads`).  Along such a path only
the items of `children` arrays change, none is added, removed or moved (`KeptButItems`), and an item
that is read as any other node is either written back whole, as the marked node, or left as it was
written; which of the two depends on whether a block is reachable in it (`ItemMarked`).
-/

namespace Hypermark.Diagram

open Hast

variable {language : String}

/-! ## Paths through opaque items -/

/-- The item is not read as a node of one of the five kinds. -/
def IsOpaque (item : Json) : Prop :=
  ∀ node, Node.ofJson item = .ok node → node.kind? = none

/-- The item at a path of indices into `children` arrays. -/
def itemAt? : Json → List Nat → Option Json
  | value, [] => some value
  | value, i :: path => (childItems value)[i]?.bind fun item => itemAt? item path

/-- The path leads to the item, and every item on the way is opaque. -/
inductive Leads : Json → List Nat → Json → Prop
  | item {value item : Json} {i : Nat} (h : (childItems value)[i]? = some item) :
    Leads value [i] item
  | through {value middle item : Json} {i : Nat} {path : List Nat}
    (h : (childItems value)[i]? = some middle) (hleft : IsOpaque middle)
    (hrest : Leads middle path item) : Leads value (i :: path) item

/-! ## What is kept -/

/-- Only the items of the `children` array differ, and there are as many of them; a value without
such an array is the same. -/
inductive KeptButItems : Json → Json → Prop
  | array {members new : Members Json} {items newItems : List Json}
    (hitems : Members.get? members "children" = some (.arr items))
    (hnew : Members.get? new "children" = some (.arr newItems))
    (hlength : newItems.length = items.length) (hnames : new.names = members.names)
    (hothers : ∀ name, name ≠ "children" → Members.get? new name = Members.get? members name) :
    KeptButItems (.obj members) (.obj new)
  | same {value : Json} (h : ∀ items, value.get? "children" ≠ some (.arr items)) :
    KeptButItems value value

/-- What an item has become. -/
structure ItemMarked (language : String) (item new : Json) : Prop where
  /-- A node with a block in it is written back, marked. -/
  rewritten : ∀ node kind, Node.ofJson item = .ok node → node.kind? = some kind →
    (∃ found, Reachable node found ∧ IsBlock language found) → new = (mark language node).toJson
  /-- A node without one is left as it was written. -/
  kept : ∀ node, Node.ofJson item = .ok node →
    (∀ found, Reachable node found → ¬ IsBlock language found) → new = item
  /-- An opaque item changes in its `children` array only. -/
  searched : IsOpaque item → KeptButItems item new

/-- The items of the marked value are the marked items. -/
theorem childItems_markJson (value : Json) :
    childItems (markJson language value).1
      = (childItems value).map fun item => (markItem language item).1 := by
  cases valueSearch language value with
  | kept hnil h => rw [h, hnil, List.map_nil]
  | searched items hget h => rw [h, childItems_setChildrenJson hget, childItems_of_get? hget]

/-- Marking keeps all but the items of a value. -/
theorem keptButItems_markJson (value : Json) :
    KeptButItems value (markJson language value).1 := by
  by_cases harray : ∃ items, value.get? "children" = some (.arr items)
  · obtain ⟨items, hget⟩ := harray
    rw [markJson_of_get? hget]
    cases value with
    | obj members =>
      refine .array hget (get?_setChildrenJson hget) (List.length_map _) Members.names_set
        fun name hname => ?_
      rw [Members.get?_set, if_neg hname]
    | null | bool _ | num _ | str _ | arr _ => cases hget
  · push Not at harray
    cases valueSearch language value with
    | searched items hget _ => exact absurd hget (harray items)
    | kept _ h =>
      rw [h]
      exact .same harray

/-! ## One item, and all items -/

/-- An opaque item is searched as the value it is in. -/
theorem markItem_of_isOpaque {item : Json} (h : IsOpaque item) :
    markItem language item = markJson language item := by
  cases itemSearch language item with
  | unread _ _ hmark | kept _ hmark => exact hmark
  | read node kind hread hkind _ => cases hkind.symm.trans (h node hread)

/-- **An item is written back exactly if it is read as a node with a block in it.** -/
theorem itemMarked_markItem (item : Json) :
    ItemMarked language item (markItem language item).1 := by
  refine ⟨fun node kind hread hkind hblock => ?_, fun node hread hnone => ?_, fun hleft => ?_⟩
  · cases itemSearch language item with
    | unread _ herror _ => cases hread.symm.trans herror
    | kept hother _ =>
      cases hread.symm.trans hother
      cases hkind
    | read found _ hfound _ h =>
      cases hread.symm.trans hfound
      rw [h, if_pos (found_iff.mpr hblock)]
  · cases itemSearch language item with
    | unread _ herror _ => cases hread.symm.trans herror
    | kept hother h =>
      -- The value of an opaque node without a block is without one too.
      cases hread.symm.trans hother
      have hvalue : Clean language (.value item) := Throughout.step hnone .kept
      rw [h]
      exact eq_self_of_not_found.2 item (not_found_of_clean.2 item hvalue)
    | read found _ hfound _ h =>
      cases hread.symm.trans hfound
      rw [h, if_neg (by simp [not_found_of_clean.1 node hnone])]
  · rw [markItem_of_isOpaque hleft]
    exact keptButItems_markJson item

/-- At the end of a path the marked value has the marked item. -/
theorem itemAt?_markJson {value item : Json} {path : List Nat} (h : Leads value path item) :
    itemAt? (markJson language value).1 path = some (markItem language item).1 := by
  induction h with
  | item h => rw [itemAt?, childItems_markJson, List.getElem?_map, h, Option.map_some,
      Option.bind_some, itemAt?]
  | through h hleft _ ih =>
    rw [itemAt?, childItems_markJson, List.getElem?_map, h, Option.map_some, Option.bind_some,
      markItem_of_isOpaque hleft, ih]

/-- **In an opaque node only the items of `children` arrays change, and of those only the ones that
are read as nodes with a block in them.** -/
theorem mark_other_items (language : String) (value : Json) :
    ∃ new, mark language (.other value) = .other new ∧ KeptButItems value new ∧
      ∀ path item, Leads value path item →
        ∃ newItem, itemAt? new path = some newItem ∧ ItemMarked language item newItem := by
  refine ⟨_, mark_other value, keptButItems_markJson value, fun path item hleads => ?_⟩
  exact ⟨_, itemAt?_markJson hleads, itemMarked_markItem item⟩

/-- A paragraph that is not written as it would be encoded stays so, and the block behind it is marked
although the element around it cannot be read. -/
theorem mark_other_items_unread :
    let block : Node :=
      .tag "pre" [] [.tag "code" (onlyClasses ["language-mermaid"]) [.plain "a"] none] none
    let paragraph : Json :=
      .obj [("position", .null), ("tagName", .str "p"), ("type", .str "element")]
    let broken : Json := .obj [("children", .arr [block.toJson]), ("type", .str "element")]
    let value : Json := .obj [("children", .arr [paragraph, broken]), ("type", .str "figure")]
    Leads value [0] paragraph ∧ Leads value [1, 0] block.toJson ∧
    ∃ new, mark "mermaid" (.other value) = .other new ∧ itemAt? new [0] = some paragraph ∧
      itemAt? new [1, 0] = some (marker "mermaid" "a").toJson := by
  intro block paragraph broken value
  have hfirst : Leads value [0] paragraph := .item rfl
  have hunread : IsOpaque broken := fun node hread => by
    cases (show Node.ofJson broken = .error (.missingField "tagName") from rfl).symm.trans hread
  have hsecond : Leads value [1, 0] block.toJson := .through (by rfl) hunread (.item rfl)
  refine ⟨hfirst, hsecond, ?_⟩
  obtain ⟨new, hmark, -, hitems⟩ := mark_other_items "mermaid" value
  obtain ⟨newParagraph, hat, hparagraph⟩ := hitems [0] paragraph hfirst
  obtain ⟨newBlock, hatBlock, hblock⟩ := hitems [1, 0] block.toJson hsecond
  refine ⟨new, hmark, ?_, ?_⟩
  · have hclean : Clean "mermaid" (.node (.element "p" [] [] none [])) :=
      throughout_node (not_isBlock_of_tagName (by decide)) (by simp) (by simp)
    rw [hat, hparagraph.kept _ rfl hclean]
  · have hread : Node.ofJson block.toJson = .ok block := rfl
    have hmarker : mark "mermaid" block = marker "mermaid" "a" := mark_of_blockText? rfl
    rw [hatBlock, hblock.rewritten block .element hread rfl ⟨block, .refl, rfl⟩, hmarker]

end Hypermark.Diagram
