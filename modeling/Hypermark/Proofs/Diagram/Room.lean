import Hypermark.Proofs.Diagram.Values
import Hypermark.Proofs.Hast.Room

/-!
# The room that a marked tree needs

Marking writes an item of a `children` array back as a node, and then what had been left out in the
item is filled in.  Where every parent of the value has room for its array of children, that does
not make the value nested too deep (`fits_mark_and_markJson`); a marker is nested less deep than the
block it is for.

So the text of a marked tree is read again unless the marked tree is nested too deep, which takes a
parent 63 steps below the top of the tree (`read_print_mark`).
-/

namespace Hypermark

open Hast

/-! ## Room in values and nodes -/

/-- Every parent in the value has room for its array of children where `depth` arrays and objects
may open. -/
def Json.HasRoom (depth : Nat) (value : Json) : Prop :=
  ∀ steps, value.ParentBelow steps → 2 * steps + 2 ≤ depth

/-- The items of a parent with room have two levels less, for the array and for the parent. -/
theorem Json.HasRoom.item {depth : Nat} {value item : Json} (h : value.HasRoom (depth + 2))
    (hitem : item ∈ childItems value) : item.HasRoom depth := by
  intro steps hsteps
  have := h (steps + 1) (.child hitem hsteps)
  omega

namespace Hast.Node

/-- The value of a node fits if the values of its members do. -/
theorem fits_toJson_iff {node : Node} {kind : Kind} (h : node.CanonicalHere)
    (hkind : node.kind? = some kind) {depth : Nat} :
    node.toJson.Fits (depth + 1) ↔
      (∀ entry ∈ node.fields (node.childList.map toJson) (node.position?.map Position.toJson),
        entry.2.Fits depth) ∧ ∀ entry ∈ node.extra, entry.2.Fits depth := by
  rw [toJson_eq hkind, Json.fits_obj, ← List.forall_mem_append]
  simp only [Members.mem_ofList_iff (nodup_fields_append (reads_of_mem_fields hkind)
    (nodup_fields node) ((canonicalHere_iff hkind).mp h).2)]

/-- The fields of a parent are those it has with other children, but for the children. -/
theorem mem_fields_setChildren {node : Node} {children : List Node} {items others : List Json}
    {position : Option Json} {entry : String × Json} (hname : entry ≠ ("children", .arr items))
    (h : entry ∈ (node.setChildren children).fields items position) :
    entry ∈ node.fields others position := by
  cases node with
  | root | element =>
    simp only [setChildren, fields, rootMembers, elementMembers, List.mem_append, List.mem_cons,
      hname, false_or] at h ⊢
    tauto
  | text | comment | raw | other => exact h

/-- A node with other children fits where the node does, if there is room for the children. -/
theorem fits_setChildren {node : Node} (h : node.CanonicalHere) {depth : Nat}
    (hfits : node.toJson.Fits depth) {children : List Node}
    (hchildren : ∀ room, depth = room + 2 → ∀ child ∈ children, child.toJson.Fits room) :
    (node.setChildren children).toJson.Fits depth := by
  have hnew := canonicalHere_ignoresChildren node children h
  have htwo (hparent : node.children?.isSome) : 2 ≤ depth :=
    (two_le_nesting h hparent).trans hfits.nesting_le
  cases node with
  | text | comment | raw | other => exact hfits
  | root | element =>
    cases depth with
    | zero => exact absurd hfits Json.not_fits_obj_zero
    | succ depth =>
      obtain ⟨hfields, hextra⟩ := (fits_toJson_iff h rfl).mp hfits
      refine (fits_toJson_iff hnew rfl).mpr ⟨fun entry hentry => ?_, hextra⟩
      by_cases hname : entry = ("children", .arr (children.map toJson))
      · subst hname
        exact fits_arr_toJson (htwo rfl) hchildren
      · exact hfields entry (mem_fields_setChildren hname hentry)

end Hast.Node

namespace Diagram

variable {language : String}

/-! ## Marking -/

/-- A marker is an object with a text in an array. -/
theorem fits_marker (content : String) : (marker language content).toJson.Fits 3 := by
  have htext : (Node.plain content).toJson.Fits 1 := by
    rw [Node.fits_toJson_iff (Node.canonical_plain content).here rfl]
    simp [Node.plain, Node.fields, Node.leafMembers, Node.extra, Node.position?]
  rw [Node.fits_toJson_iff (canonical_marker content).here rfl]
  simp [marker, Node.tag, Node.fields, Node.elementMembers, Node.extra, Node.position?,
    propertiesJson, onlyClasses, Json.fits_obj, Json.fits_arr, PropertyValue.toJson, htext]

/-- A block has a parent in a parent, so there is room for a marker. -/
theorem three_le_nesting {node : Node} (h : node.Canonical) (hblock : IsBlock language node) :
    3 ≤ node.toJson.nesting := by
  obtain ⟨_, code, _, _, _, _, _, _, rfl, rfl, _⟩ := isBlock_iff.mp hblock
  have := Node.hasRoom_nesting h [0] _ rfl rfl
  rw [List.length_singleton] at this
  omega

/-- A value with another array of items fits where the value does, if there is room for the items.
-/
theorem fits_setChildrenJson {value : Json} {depth : Nat} (hfits : value.Fits depth)
    {items marked : List Json} (hget : value.get? "children" = some (.arr items))
    (hmarked : ∀ room, depth = room + 2 → ∀ item ∈ marked, item.Fits room) :
    (setChildrenJson marked value).Fits depth := by
  cases value with
  | obj members =>
    have harray := Json.nesting_lt_of_get? hget
    rw [Json.nesting] at harray
    have := hfits.nesting_le
    obtain ⟨room, rfl⟩ : ∃ n, depth = n + 2 := ⟨depth - 2, by omega⟩
    refine Json.fits_obj.mpr fun entry hentry => ?_
    rcases Members.mem_set hentry with rfl | hentry
    · exact Json.fits_arr.mpr (hmarked room rfl)
    · exact Json.fits_obj.mp hfits entry hentry
  | null | bool _ | num _ | str _ | arr _ => cases hget

/-- A marked item fits where the item does, given that for what it is searched as. -/
theorem fits_markItem {item : Json} (hitem : item.Ordered) {depth : Nat} (hfits : item.Fits depth)
    (hroom : item.HasRoom depth) (hvalue : (markJson language item).1.Fits depth)
    (hnode : ∀ node, Node.ofJson item = .ok node → node.toJson.Fits depth →
      node.toJson.HasRoom depth → (mark language node).toJson.Fits depth) :
    (markItem language item).1.Fits depth := by
  cases itemSearch language item with
  | unread _ _ h | kept _ h => rwa [h]
  | read node _ hread _ h =>
    -- Only an item that is written back grows, and by no more than its parents have room for.
    rw [h]
    split
    · refine hnode node hread ?_ fun steps hsteps => ?_
      · exact Node.fits_toJson_of_ofJson hitem hread hfits fun path parent hat hparent =>
          hroom path.length (Node.parentBelow_of_at? hitem hread hat hparent)
      · rw [Node.toJson_of_ofJson hitem hread] at hsteps
        exact hroom steps (hsteps.of_normalForm hitem)
    · exact hfits

/-- **Where parents have room, marking does not nest deeper than there is room.** -/
theorem fits_mark_and_markJson :
    (∀ node : Node, ∀ depth, node.Canonical → node.toJson.Fits depth →
      node.toJson.HasRoom depth → (mark language node).toJson.Fits depth) ∧
    ∀ value : Json, ∀ depth, value.Ordered → value.Fits depth → value.HasRoom depth →
      (markJson language value).1.Fits depth := by
  refine search_induction (fun node hchildren hother depth hcanonical hfits hroom => ?_)
    fun value hitems hnodes depth hordered hfits hroom => ?_
  · rw [mark]
    cases nodeSearch language node with
    | block content hblock h =>
      have hblock : IsBlock language node := by simp [IsBlock, hblock]
      rw [h]
      -- A block is nested as deep as its marker at least.
      exact (fits_marker content).mono
        ((three_le_nesting hcanonical hblock).trans hfits.nesting_le)
    | kept value hnode h =>
      subst hnode
      rw [h]
      exact hother value rfl depth hcanonical.here.1 hfits hroom
    | searched kind _ _ h =>
      rw [h]
      refine Node.fits_setChildren hcanonical.here hfits fun room hdepth => ?_
      subst hdepth
      refine List.forall_mem_map.mpr fun child hchild => ?_
      have hitem := Node.toJson_mem_childItems hcanonical.here hchild
      exact hchildren child hchild room (hcanonical.child child hchild)
        (hfits.of_mem_childItems hitem) (hroom.item hitem)
  · cases valueSearch language value with
    | kept _ h => rwa [h]
    | searched items hget h =>
      rw [h]
      refine fits_setChildrenJson hfits hget fun room hdepth => ?_
      subst hdepth
      refine List.forall_mem_map.mpr fun item hitem => ?_
      rw [← childItems_of_get? hget] at hitem
      have hitemOrdered := ordered_of_mem_childItems hordered hitem
      have hitemFits := hfits.of_mem_childItems hitem
      have hitemRoom := hroom.item hitem
      exact fits_markItem hitemOrdered hitemFits hitemRoom
        (hitems item hitem room hitemOrdered hitemFits hitemRoom) fun node hread =>
          hnodes item hitem node hread room (Node.canonical_of_ofJson hitemOrdered hread)

/-- **A marked tree is refused for its nesting or not at all**, and only where a parent of the tree
lies 63 steps below the top. -/
theorem read_print_mark {source : String} {tree : Node} (h : Node.read source = .ok tree)
    (language : String) :
    ((∃ again, Node.read (mark language tree).print = .ok again) ↔
      (mark language tree).toJson.nesting ≤ Json.maxNesting) ∧
    ((∀ steps, tree.toJson.ParentBelow steps → steps < 63) →
      ∃ again, Node.read (mark language tree).print = .ok again) ∧
    ((∃ again, Node.read tree.print = .ok again) ↔
      ∀ path parent, tree.at? path = some parent → parent.children?.isSome →
        path.length < 63) := by
  obtain ⟨value, hv, hvalue, hread⟩ := Node.exists_of_read h
  obtain ⟨hfits, hroom⟩ := Node.fits_toJson_of_read h
  have hcanonical := Node.canonical_of_ofJson hv hread
  have hplaced := Node.placed_of_ofJson hv hread
  -- One array more than is read may open here, so only the numbers are of use.
  have hheld : (mark language tree).toJson.Held :=
    (fits_mark_and_markJson.1 tree _ hcanonical hfits hroom).held
  have hmarked := Node.exists_read_print_iff (canonical_mark hcanonical) (placed_mark hplaced) hheld
  refine ⟨hmarked, fun hshallow => hmarked.mpr ?_, Node.exists_read_print_iff_of_read h⟩
  have hroom : tree.toJson.HasRoom Json.maxNesting := by
    intro steps hsteps
    have := hshallow steps hsteps
    rw [Json.maxNesting]
    omega
  refine (fits_mark_and_markJson.1 tree _ hcanonical ?_ hroom).nesting_le
  refine Node.fits_toJson_of_ofJson hv hread hvalue fun path parent hat hparent => ?_
  exact hroom path.length (Node.parentBelow_of_at? (Node.ordered_toJson hcanonical)
    (Node.ofJson_toJson hcanonical hplaced) hat hparent)

/-- Of 63 roots in one another, the innermost lies 62 steps below the top. -/
theorem read_print_mark_nestedRoots :
    Node.read (Json.nestedRoots 62).print = .ok (Node.nestedRoots 62) ∧
    (∃ again, Node.read (mark "mermaid" (Node.nestedRoots 62)).print = .ok again) ∧
    ∃ again, Node.read (Node.nestedRoots 62).print = .ok again := by
  have hread := Node.read_nestedRoots (show 62 ≤ 63 by decide)
  have hordered := Node.ordered_nestedRoots 62
  have hofJson := Node.ofJson_nestedRoots 62
  have hshallow : ∀ steps, (Json.nestedRoots 62).ParentBelow steps → steps < 63 := by
    intro steps hsteps
    have := hsteps.lt_nesting
    rw [Node.nesting_nestedRoots] at this
    omega
  obtain ⟨_, hmark, hprint⟩ := read_print_mark hread "mermaid"
  refine ⟨hread, hmark fun steps hsteps => ?_, hprint.mpr fun path parent hat hparent => ?_⟩
  · rw [Node.toJson_of_ofJson hordered hofJson] at hsteps
    exact hshallow steps (hsteps.of_normalForm hordered)
  · exact hshallow path.length (Node.parentBelow_of_at? hordered hofJson hat hparent)

/-- Of 64 roots in one another, the innermost lies 63 steps below the top: what is read is not
always read again. -/
theorem not_forall_read_print_mark :
    ¬ ∀ source tree, Node.read source = .ok tree → ∀ language,
      (∃ again, Node.read tree.print = .ok again) ∧
      ∃ again, Node.read (mark language tree).print = .ok again := by
  intro h
  exact Node.not_read_print_nestedRoots
    (h _ _ (Node.read_nestedRoots (show 63 ≤ 63 by decide)) "mermaid").1

end Diagram

end Hypermark
