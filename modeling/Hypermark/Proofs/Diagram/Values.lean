import Hypermark.Proofs.Diagram.Search
import Hypermark.Proofs.Hast.Codec
import Hypermark.Proofs.Hast.Grammar

/-!
# Marking in nodes and in values

Marking leaves a tree canonical and its positions in place, so an item that is marked and written
back is read again as the marked node.  Hence the values of nodes are marked as the nodes themselves
(`markItem_toJson`).

An item that cannot be read cannot be read after marking either (`exists_ofJson_of_markJson`): what
makes it unreadable lies outside of the nodes in it, or in an item that stays unreadable.
-/

namespace Hypermark.Diagram

open Hast

variable {language : String}

/-! ## Positions -/

/-- A marker is placed: it has no position. -/
theorem placed_marker (content : String) : (marker language content).Placed :=
  Node.placed_tag (by simp [Node.placed_plain])

/-- Marking keeps positions that fit. -/
theorem placed_mark {node : Node} (hplaced : node.Placed) : (mark language node).Placed := by
  induction node using Node.induction_children with
  | step node ih =>
    rw [mark]
    cases nodeSearch language node with
    | block content _ h =>
      rw [h]
      exact placed_marker content
    | kept value _ h =>
      rw [h]
      exact ⟨by simp [Node.PlacedHere, Node.position?], by simp⟩
    | searched kind _ _ h =>
      rw [h]
      refine hplaced.setChildren Node.placedHere_ignoresChildren fun child hchild => ?_
      obtain ⟨unmarked, hmem, rfl⟩ := List.mem_map.mp hchild
      exact ih unmarked hmem (hplaced.child unmarked hmem)

/-! ## Canonical trees -/

/-- A marker is canonical. -/
theorem canonical_marker (content : String) : (marker language content).Canonical :=
  Node.canonical_tag (propertiesFit_onlyClasses _) (by simp [Node.canonical_plain])

/-- Another `children` array leaves the other members as they are. -/
theorem kindOf?_setChildrenJson (items : List Json) (value : Json) :
    kindOf? (setChildrenJson items value) = kindOf? value := by
  cases value with
  | obj members => simp [setChildrenJson, kindOf?, Kind.ofMembers?, Members.get?_set]
  | null | bool _ | num _ | str _ | arr _ => rfl

/-- Marking does not change what kind of node a value is read as. -/
theorem kindOf?_markJson (value : Json) : kindOf? (markJson language value).1 = kindOf? value := by
  cases valueSearch language value with
  | searched items _ h => rw [h, kindOf?_setChildrenJson]
  | kept _ h => rw [h]

/-- A value stays in order if the new items are. -/
theorem ordered_setChildrenJson {value : Json} (h : value.Ordered) {items : List Json}
    (hitems : ∀ item ∈ items, item.Ordered) : (setChildrenJson items value).Ordered := by
  cases value with
  | obj members =>
    obtain ⟨hsorted, hvalues⟩ := Json.ordered_obj.mp h
    refine Json.ordered_obj.mpr ⟨hsorted.set, fun entry hentry => ?_⟩
    rcases Members.mem_set hentry with rfl | hentry
    · exact Json.ordered_arr.mpr hitems
    · exact hvalues entry hentry
  | null | bool _ | num _ | str _ | arr _ => exact h

/-- A marked item is ordered, given that for what it is searched as. -/
theorem ordered_markItem_of {item : Json} (hitem : item.Ordered)
    (hvalue : (markJson language item).1.Ordered)
    (hnode : ∀ node, Node.ofJson item = .ok node → (mark language node).Canonical) :
    (markItem language item).1.Ordered := by
  cases itemSearch language item with
  | unread _ _ h | kept _ h => rwa [h]
  | read node _ hread _ h =>
    rw [h]
    split
    · exact Node.ordered_toJson (hnode node hread)
    · exact hitem

/-- What comes out of the search is as orderly as what goes in. -/
theorem canonical_and_ordered :
    (∀ node : Node, node.Canonical → (mark language node).Canonical) ∧
    ∀ value : Json, value.Ordered → (markJson language value).1.Ordered := by
  refine search_induction (fun node hchildren hother hcanonical => ?_)
    fun value hitems hnodes hordered => ?_
  · rw [mark]
    cases nodeSearch language node with
    | block content _ h =>
      rw [h]
      exact canonical_marker content
    | kept value hnode h =>
      subst hnode
      rw [h]
      refine ⟨⟨hother value rfl hcanonical.here.1, ?_⟩, by simp⟩
      rw [kindOf?_markJson, hcanonical.here.2]
    | searched kind _ _ h =>
      rw [h]
      refine hcanonical.setChildren Node.canonicalHere_ignoresChildren fun child hchild => ?_
      obtain ⟨unmarked, hmem, rfl⟩ := List.mem_map.mp hchild
      exact hchildren unmarked hmem (hcanonical.child unmarked hmem)
  · cases valueSearch language value with
    | kept _ h => rwa [h]
    | searched items hget h =>
      rw [h]
      refine ordered_setChildrenJson hordered fun marked hmarked => ?_
      obtain ⟨item, hitem, rfl⟩ := List.mem_map.mp hmarked
      rw [← childItems_of_get? hget] at hitem
      have hordered := ordered_of_mem_childItems hordered hitem
      exact ordered_markItem_of hordered (hitems item hitem hordered) fun node hread =>
        hnodes item hitem node hread (Node.canonical_of_ofJson hordered hread)

/-- **Marking leaves a tree canonical.** -/
theorem canonical_mark {node : Node} (h : node.Canonical) : (mark language node).Canonical :=
  canonical_and_ordered.1 node h

/-- Marking leaves a value in order. -/
theorem ordered_markJson {value : Json} (h : value.Ordered) :
    (markJson language value).1.Ordered :=
  canonical_and_ordered.2 value h

/-- So it leaves an item. -/
theorem ordered_markItem {item : Json} (h : item.Ordered) : (markItem language item).1.Ordered :=
  ordered_markItem_of h (ordered_markJson h) fun _ hread =>
    canonical_mark (Node.canonical_of_ofJson h hread)

/-! ## Values that cannot be read -/

/-- Whether an object can be read as a node of its kind depends on its `children` array only as far
as the items of the array can be read. -/
theorem exists_ofJson_of_set {members : Members Json} {items marked : List Json}
    (h : (Json.obj members).Ordered) (hmarked : ∀ item ∈ marked, item.Ordered)
    (hget : Members.get? members "children" = some (.arr items))
    (hitems : (∀ item ∈ marked, ∃ node, Node.ofJson item = .ok node) →
      ∀ item ∈ items, ∃ node, Node.ofJson item = .ok node)
    (hread : ∃ node, Node.ofJson (.obj (Members.set "children" (.arr marked) members)) = .ok node) :
    ∃ node, Node.ofJson (.obj members) = .ok node := by
  have hordered : (Json.obj (Members.set "children" (.arr marked) members)).Ordered :=
    ordered_setChildrenJson h hmarked
  have hkinds := kindOf?_setChildrenJson marked (.obj members)
  cases hkind : kindOf? (.obj members) with
  | none => exact ⟨_, Node.ofJson_of_kindOf?_eq_none hkind⟩
  | some kind =>
    rw [hkind] at hkinds
    rw [Node.exists_ofJson_iff_fieldsFit h hkind]
    have hfit := (Node.exists_ofJson_iff_fieldsFit hordered hkinds).mp hread
    -- Only the children are set, so every other field is read as before.
    have hother {name : String} (hname : name ≠ "children") :
        (Json.obj (Members.set "children" (.arr marked) members)).get? name
          = (Json.obj members).get? name := by
      rw [Json.get?, Json.get?, Members.get?_set, if_neg hname]
    have hchildren : (Json.obj (Members.set "children" (.arr marked) members)).get? "children"
        = some (.arr marked) := by
      rw [Json.get?, Members.get?_set, if_pos rfl, hget, Option.map_some]
    refine ⟨fun position hposition => ?_, fun _ children hfound => ?_, fun has found hfound => ?_,
      fun has => ?_, fun has properties hproperties => ?_, fun has => ?_⟩
    · exact hfit.position position ((hother (by decide)).trans hposition)
    · exact ⟨items, Option.some.inj (hfound.symm.trans hget)⟩
    · obtain rfl : items = found := by
        have := hget.symm.trans hfound
        simpa using this
      exact hitems (hfit.items has marked hchildren)
    · rw [← hother (by decide)]
      exact hfit.tagName has
    · exact hfit.properties has properties ((hother (by decide)).trans hproperties)
    · rw [← hother (by decide)]
      exact hfit.value has

/-- **What can be read after marking could be read before.** -/
theorem exists_ofJson_of_markJson {value : Json} (hordered : value.Ordered)
    (hread : ∃ node, Node.ofJson (markJson language value).1 = .ok node) :
    ∃ node, Node.ofJson value = .ok node := by
  induction value using induction_childItems with
  | step value ih =>
    cases valueSearch language value with
    | kept _ h => rwa [h] at hread
    | searched items hget h =>
      have hitemOrdered {item : Json} (hitem : item ∈ items) : item.Ordered :=
        ordered_of_mem_childItems hordered (by rwa [childItems_of_get? hget])
      rw [h] at hread
      rw [childItems_of_get? hget] at ih
      cases value with
      | obj members =>
        refine exists_ofJson_of_set hordered (fun marked hmarked => ?_) hget
          (fun hnodes => ?_) hread
        · obtain ⟨item, hitem, rfl⟩ := List.mem_map.mp hmarked
          exact ordered_markItem (hitemOrdered hitem)
        · intro item hitem
          have hmarked := hnodes _ (List.mem_map_of_mem hitem)
          cases itemSearch language item with
          | unread _ _ h =>
            rw [h] at hmarked
            exact ih item hitem (hitemOrdered hitem) hmarked
          | kept hread _ => exact ⟨_, hread⟩
          | read node _ hread _ _ => exact ⟨node, hread⟩
      | null | bool _ | num _ | str _ | arr _ => cases hget

/-! ## The value of a node -/

/-- **An item that is read as a node is read as the marked node after marking.** -/
theorem ofJson_markItem {item : Json} {node : Node} (hordered : item.Ordered)
    (hread : Node.ofJson item = .ok node) :
    Node.ofJson (markItem language item).1 = .ok (mark language node) := by
  have hcanonical := Node.canonical_of_ofJson hordered hread
  cases itemSearch language item with
  | unread _ herror _ => cases hread.symm.trans herror
  | kept hkept h =>
    obtain rfl : node = .other item := Except.ok.inj (hread.symm.trans hkept)
    rw [h, mark_other]
    refine Node.ofJson_of_kindOf?_eq_none ?_
    rw [kindOf?_markJson, hcanonical.here.2]
  | read found kind hfound _ h =>
    obtain rfl : node = found := Except.ok.inj (hread.symm.trans hfound)
    rw [h]
    split
    · exact Node.ofJson_toJson (canonical_mark hcanonical)
        (placed_mark (Node.placed_of_ofJson hordered hread))
    · next hnone =>
      rw [mark_eq_self (by simpa using hnone)]
      exact hread

/-- **The value of a node is marked as the node is.** -/
theorem markItem_toJson {node : Node} (h : node.Decoded) :
    (markItem language node.toJson).1 = (mark language node).toJson := by
  have hread := Node.ofJson_toJson h.canonical h.placed
  cases itemSearch language node.toJson with
  | unread _ herror _ => cases hread.symm.trans herror
  | kept hkept h =>
    obtain heq : node = .other node.toJson := Except.ok.inj (hread.symm.trans hkept)
    rw [h, heq, mark_other]
    rfl
  | read found kind hfound _ h =>
    obtain rfl : node = found := Except.ok.inj (hread.symm.trans hfound)
    rw [h]
    split
    · rfl
    · next hnone => rw [mark_eq_self (by simpa using hnone)]

/-- **Nodes that were read are marked in the `children` array of any object as they are
themselves.** -/
theorem mark_other_children {nodes : List Node} (h : ∀ node ∈ nodes, node.Decoded)
    (members : Members Json) :
    mark language
        (.other (.obj (Members.insert "children" (.arr (nodes.map Node.toJson)) members)))
      = .other (.obj (Members.insert "children"
          (.arr (nodes.map fun node => (mark language node).toJson)) members)) := by
  have hget : (Json.obj (Members.insert "children" (.arr (nodes.map Node.toJson)) members)).get?
      "children" = some (.arr (nodes.map Node.toJson)) := by
    rw [Json.get?, Members.get?_insert, if_pos rfl]
  have hitems : (nodes.map Node.toJson).map (fun item => (markItem language item).1)
      = nodes.map fun node => (mark language node).toJson := by
    rw [List.map_map]
    exact List.map_congr_left fun node hnode => markItem_toJson (h node hnode)
  rw [mark_other, markJson_of_get? hget, hitems, setChildrenJson, Members.set_insert]

/-- A block in an opaque node becomes a marker. -/
theorem mark_other_children_block :
    let block : Node :=
      .tag "pre" [] [.tag "code" (onlyClasses ["language-mermaid"]) [.plain "a"] none] none
    mark "mermaid" (.other (.obj [("children", .arr [block.toJson]), ("type", .str "figure")]))
      = .other (.obj [("children", .arr [(marker "mermaid" "a").toJson]),
          ("type", .str "figure")]) := by
  intro block
  have hcode : (Node.tag "code" (onlyClasses ["language-mermaid"]) [.plain "a"] none).Canonical :=
    Node.canonical_tag (propertiesFit_onlyClasses _) (by simp [Node.canonical_plain])
  have hblock : block.Canonical := Node.canonical_tag propertiesFit_nil (by simpa using hcode)
  have hplaced : block.Placed := Node.placed_tag (by
    simpa using Node.placed_tag (by simp [Node.placed_plain]))
  have hdecoded : block.Decoded :=
    ⟨block.toJson, Node.ordered_toJson hblock, Node.ofJson_toJson hblock hplaced⟩
  have hmark : mark "mermaid" block = marker "mermaid" "a" := mark_of_blockText? rfl
  have h := @mark_other_children "mermaid" [block] (by simpa using hdecoded)
    [("type", .str "figure")]
  simp only [List.map_cons, List.map_nil, hmark] at h
  exact h

end Hypermark.Diagram
