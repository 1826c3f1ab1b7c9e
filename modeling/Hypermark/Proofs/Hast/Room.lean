import Hypermark.Proofs.Hast.NormalForm
import Hypermark.Proofs.Hast.Reread

/-!
# The room that a tree needs

Every step from a node to a child opens an object and an array in the value of the tree, and what is
written for a root or an element has an array for its children even if there are none.  So a tree is
read again only if its roots and elements lie less than 63 steps below the top, and nothing else is
needed of a tree that was read before (`exists_read_print_iff_of_read`).

A root without children may lie 63 steps below the top of a value that is read; what is written for
it has an array more, and that one is nested too deep.
-/

namespace Hypermark

open Hast

namespace Json

/-! ## Parents -/

/-- The value is of a kind that has children. -/
def IsParent (value : Json) : Prop := ∃ kind, kindOf? value = some kind ∧ kind.hasChildren

/-- A value of a kind that has children lies the given number of steps below the value; every step
goes to an item of a `children` array. -/
inductive ParentBelow : Nat → Json → Prop
  | here {value : Json} (h : value.IsParent) : ParentBelow 0 value
  | child {steps : Nat} {value item : Json} (hitem : item ∈ childItems value)
    (h : ParentBelow steps item) : ParentBelow (steps + 1) value

/-- An item lies in an array in an object. -/
theorem nesting_add_two_le {value item : Json} (h : item ∈ childItems value) :
    item.nesting + 2 ≤ value.nesting := by
  unfold childItems at h
  split at h
  · next items hitems =>
    cases value with
    | obj members =>
      have harray : (arr items).nesting < (obj members).nesting := nesting_lt_of_get? hitems
      have hitem : item.nesting < (arr items).nesting := nesting_lt_of_mem_parts h
      omega
    | null | bool | num | str | arr => cases hitems
  · cases h

/-- An item fits into two levels less than its parent. -/
theorem Fits.of_mem_childItems {depth : Nat} {value item : Json} (h : value.Fits (depth + 2))
    (hitem : item ∈ childItems value) : item.Fits depth := by
  unfold childItems at hitem
  split at hitem
  · next items hitems =>
    cases value with
    | obj members => exact fits_arr.mp (h.get? hitems) item hitem
    | null | bool | num | str | arr => cases hitems
  · cases hitem

/-- A parent is an object, so it has a level of its own. -/
theorem IsParent.nesting_pos {value : Json} (h : value.IsParent) : 0 < value.nesting := by
  obtain ⟨kind, hkind, _⟩ := h
  cases value with
  | obj members =>
    rw [nesting]
    omega
  | null | bool | num | str | arr => cases hkind

/-- A parent is an object, so it is nested deeper than what it lies in. -/
theorem ParentBelow.lt_nesting {steps : Nat} {value : Json} (h : value.ParentBelow steps) :
    2 * steps < value.nesting := by
  induction h with
  | here h => exact h.nesting_pos
  | child hitem _ ih =>
    have := nesting_add_two_le hitem
    omega

/-! ## Parents in the normal form -/

/-- The normal form has the same kind. -/
theorem kindOf?_normalForm {value : Json} (h : value.Ordered) :
    kindOf? value.normalForm = kindOf? value := by
  cases hkind : kindOf? value with
  | none => rw [normalForm_of_kindOf?_eq_none hkind, hkind]
  | some kind =>
    cases value with
    | obj members =>
      obtain ⟨normal, hnormal, _, hget⟩ := exists_normalForm_eq (ordered_obj.mp h).1 hkind
      rw [kindOf?_eq_some_iff] at hkind ⊢
      rw [hnormal, get?, hget, if_neg (by simp), if_neg (by simp)]
      rw [show Members.get? members "type" = _ from hkind, Option.bind_some, normalMember,
        if_neg (by simp), if_neg (by decide)]
    | null | bool | num | str | arr => cases hkind

/-- The children of a parent are brought into normal form. -/
theorem childItems_normalForm {value : Json} (h : value.Ordered) :
    childItems value.normalForm = childItems value ∨
      childItems value.normalForm = (childItems value).map normalForm := by
  cases hkind : kindOf? value with
  | none => exact .inl (by rw [normalForm_of_kindOf?_eq_none hkind])
  | some kind =>
    cases value with
    | obj members =>
      obtain ⟨normal, hnormal, _, hget⟩ := exists_normalForm_eq (ordered_obj.mp h).1 hkind
      rw [hnormal]
      unfold childItems
      simp only [get?, hget]
      cases hhas : kind.hasChildren with
      | true =>
        refine .inr ?_
        cases Members.get? members "children" with
        | none => simp
        | some children => cases children <;> simp [normalChildren]
      | false =>
        refine .inl ?_
        have hmember : normalMember kind "children" = some := by
          funext value
          rw [normalMember, if_neg (by simp [hhas]), if_neg (by decide)]
        simp [hmember]
    | null | bool | num | str | arr => cases hkind

/-- The normal form has no other parents. -/
theorem ParentBelow.of_normalForm {steps : Nat} {value : Json} (hv : value.Ordered)
    (h : value.normalForm.ParentBelow steps) : value.ParentBelow steps := by
  induction steps generalizing value with
  | zero =>
    cases h with
    | here h =>
      rw [IsParent, kindOf?_normalForm hv] at h
      exact .here h
  | succ steps ih =>
    cases h with
    | child hitem h =>
      rcases childItems_normalForm hv with hitems | hitems
      · rw [hitems] at hitem
        exact .child hitem h
      · rw [hitems] at hitem
        obtain ⟨item, hmem, rfl⟩ := List.mem_map.mp hitem
        exact .child hmem (ih (ordered_of_mem_childItems hv hmem) h)

end Json

namespace Hast.Node

/-! ## Parents in a tree -/

/-- What is found in a child is found in the node, by a path through that child. -/
theorem at?_of_mem_childList {node child parent : Node} {path : List Nat}
    (hchild : child ∈ node.childList) (hat : child.at? path = some parent) :
    ∃ i, node.at? (i :: path) = some parent := by
  obtain ⟨i, hi⟩ := List.mem_iff_getElem?.mp hchild
  exact ⟨i, by rw [at?_cons, hi, Option.bind_some, hat]⟩

/-- The nodes with children are those of the kinds that have them. -/
theorem children?_eq_some_iff {node : Node} {children : List Node} :
    node.children? = some children ↔
      (∃ kind, node.kind? = some kind ∧ kind.hasChildren) ∧ node.childList = children := by
  cases node <;> simp [children?, kind?, Kind.hasChildren, childList]

/-- The `children` array of a value that is written for a node. -/
theorem get?_children_toJson {node : Node} {children : List Node} (h : node.CanonicalHere)
    (hchildren : node.children? = some children) :
    node.toJson.get? "children" = some (.arr (children.map toJson)) := by
  obtain ⟨⟨kind, hkind, has⟩, rfl⟩ := children?_eq_some_iff.mp hchildren
  rw [toJson_eq hkind, Json.get?, get?_ofList_fields (reads_of_mem_fields hkind) (nodup_fields node)
    ((canonicalHere_iff hkind).mp h).2 (by simp [Kind.reads, has])]
  cases node with
  | root | element => simp [fields, rootMembers, elementMembers, Members.get?_cons]
  | text | comment | raw | other => cases hchildren

/-- What is written for a child is an item of that array. -/
theorem toJson_mem_childItems {node child : Node} (h : node.CanonicalHere)
    (hchild : child ∈ node.childList) : child.toJson ∈ childItems node.toJson := by
  cases hchildren : node.children? with
  | none =>
    rw [childList, hchildren] at hchild
    cases hchild
  | some children =>
    rw [childItems_of_get? (get?_children_toJson h hchildren), ← childList_of_children? hchildren]
    exact List.mem_map_of_mem hchild

/-- Every parent in a tree that is read is one in the value. -/
theorem parentBelow_of_at? {value : Json} (hv : value.Ordered) {node parent : Node}
    {path : List Nat} (hread : ofJson value = .ok node) (hat : node.at? path = some parent)
    (hparent : parent.children?.isSome) : value.ParentBelow path.length := by
  induction path generalizing value node with
  | nil =>
    rw [at?_nil, Option.some.injEq] at hat
    subst hat
    obtain ⟨children, hchildren⟩ := Option.isSome_iff_exists.mp hparent
    have := (children?_eq_some_iff.mp hchildren).1
    rw [kind?_of_ofJson hv hread] at this
    exact .here this
  | cons i path ih =>
    rw [at?_cons, Option.bind_eq_some_iff] at hat
    obtain ⟨child, hchild, hat⟩ := hat
    have hitem := forall_childList_of_ofJson (p := fun child =>
      ∃ item ∈ childItems value, ofJson item = .ok child) hv hread
      (fun item hitem child hchild => ⟨item, hitem, hchild⟩) child (List.mem_of_getElem? hchild)
    obtain ⟨item, hitem, hread⟩ := hitem
    exact .child hitem (ih (ordered_of_mem_childItems hv hitem) hread hat)

/-- Every parent in the tree has room for its array of children where `depth` arrays and objects may
open. -/
def HasRoom (depth : Nat) (node : Node) : Prop :=
  ∀ path parent, node.at? path = some parent → parent.children?.isSome → 2 * path.length + 2 ≤ depth

/-- A parent with room has it for its array and itself. -/
theorem HasRoom.here {depth : Nat} {node : Node} (h : node.HasRoom depth)
    (hparent : node.children?.isSome) : 2 ≤ depth :=
  h [] node node.at?_nil hparent

/-- A child has room in two levels less. -/
theorem HasRoom.child {depth : Nat} {node child : Node} (h : node.HasRoom (depth + 2))
    (hchild : child ∈ node.childList) : child.HasRoom depth := by
  intro path parent hat hparent
  obtain ⟨i, hat⟩ := at?_of_mem_childList hchild hat
  have := h (i :: path) parent hat hparent
  rw [List.length_cons] at this
  omega

/-- What is written for a parent has an array in an object. -/
theorem two_le_nesting {node : Node} (h : node.CanonicalHere) (hparent : node.children?.isSome) :
    2 ≤ node.toJson.nesting := by
  obtain ⟨children, hchildren⟩ := Option.isSome_iff_exists.mp hparent
  have hget := get?_children_toJson h hchildren
  obtain ⟨⟨kind, hkind, _⟩, _⟩ := children?_eq_some_iff.mp hchildren
  rw [toJson_eq hkind] at hget ⊢
  have harray := Json.nesting_lt_of_get? hget
  rw [Json.nesting] at harray
  omega

/-- Where the value of a tree may be nested, its parents have room. -/
theorem hasRoom_nesting {node : Node} (h : node.Canonical) : node.HasRoom node.toJson.nesting := by
  intro path parent hat hparent
  induction path generalizing node with
  | nil =>
    rw [at?_nil, Option.some.injEq] at hat
    subst hat
    exact two_le_nesting h.here hparent
  | cons i path ih =>
    rw [at?_cons, Option.bind_eq_some_iff] at hat
    obtain ⟨child, hchild, hat⟩ := hat
    -- A step opens an object and an array, as much as is counted for it.
    have hmem := List.mem_of_getElem? hchild
    have := ih (h.child child hmem) hat
    have := Json.nesting_add_two_le (toJson_mem_childItems h.here hmem)
    rw [List.length_cons]
    omega

end Hast.Node

/-! ## Positions -/

/-- A natural number of 64 bits fits anywhere. -/
theorem Json.fits_nat {depth n : Nat} (h : (n : Int) ≤ maxSize) : (nat n).Fits depth := by
  rw [nat, fits_num, JsonNumber.Held, JsonNumber.isWord, Bool.and_eq_true, decide_eq_true_eq,
    decide_eq_true_eq]
  rw [maxSize] at h
  omega

/-- The value of a point that fits needs one level. -/
theorem Point.fits_toJson {point : Point} (h : point.Fits) {depth : Nat} :
    (Json.obj (Members.ofList point.members)).Fits (depth + 1) := by
  refine Json.fits_obj.mpr fun entry hentry => ?_
  rcases List.mem_append.mp (Members.mem_ofList hentry) with hentry | hentry
  · rcases List.mem_pair.mp hentry with rfl | rfl
    · exact Json.fits_nat h.line
    · exact Json.fits_nat h.column
  · rw [Option.mem_toList, Option.map_eq_some_iff] at hentry
    obtain ⟨offset, hoffset, rfl⟩ := hentry
    exact Json.fits_nat (h.offset offset hoffset)

/-- A value that is read as a point has a level of its own. -/
theorem Point.nesting_pos {value : Json} (hv : value.Ordered) {point : Point}
    (h : ofJson value = .ok point) : 0 < value.nesting := by
  cases (ofJson_eq_ok_iff hv).mp h <;> rw [Json.nesting] <;> omega

/-- What is written for a position is nested no deeper than what it is read from. -/
theorem Position.fits_toJson {value : Json} (hv : value.Ordered) {position : Position}
    (h : ofJson value = .ok position) {depth : Nat} (hfits : value.Fits depth) :
    position.toJson.Fits depth := by
  have hpoints := fits_of_ofJson h
  have hdepth : 2 ≤ value.nesting := by
    cases (ofJson_eq_ok_iff hv).mp h with
    | object hstart start_read =>
      have := Json.nesting_lt_of_get? hstart
      have := Point.nesting_pos (hv.get? hstart) start_read
      omega
    | @pair start stop start_read =>
      have hmem : start ∈ (Json.arr [start, stop]).parts := List.mem_cons_self
      have := Json.nesting_lt_of_mem_parts hmem
      have := Point.nesting_pos (Json.ordered_arr.mp hv _ List.mem_cons_self) start_read
      omega
  obtain ⟨depth, rfl⟩ := Nat.exists_eq_add_of_le' (hdepth.trans hfits.nesting_le)
  rw [toJson_eq]
  refine Json.fits_obj.mpr fun entry hentry => ?_
  rcases List.mem_pair.mp hentry with rfl | rfl
  · exact Point.fits_toJson hpoints.stop
  · exact Point.fits_toJson hpoints.start

namespace Hast.Node

/-! ## What is written for a tree that was read -/

/-- What is written for a member of a node fits where the member did, its children aside. -/
theorem fits_normalMember {kind : Kind} {members : Members Json} (hv : (Json.obj members).Ordered)
    {draft : Draft} (hreads : Reads kind {} members draft) {depth : Nat}
    (hfits : (Json.obj members).Fits (depth + 1)) {name : String} {value : Json}
    (hname : ¬ (name = "children" ∧ kind.hasChildren))
    (h : (Members.get? members name).bind (Json.normalMember kind name) = some value) :
    value.Fits depth := by
  obtain ⟨found, hfound, h⟩ := Option.bind_eq_some_iff.mp h
  have hmember := hfits.get? hfound
  rw [Json.normalMember, if_neg hname] at h
  by_cases hposition : name = "position"
  · subst hposition
    rw [if_pos rfl] at h
    have hread := hreads.position
    rw [FieldIs, if_pos rfl, hfound] at hread
    split at h
    · cases h
    · next hnull =>
      cases h
      rcases Position.ofOptionalJson_eq_ok_iff.mp hread with ⟨rfl, _⟩ | ⟨position, hread, _⟩
      · exact absurd rfl hnull
      · rw [Position.normalPosition_of_ofJson (hv.get? hfound) hread]
        exact Position.fits_toJson (hv.get? hfound) hread hmember
  · rw [if_neg hposition] at h
    cases h
    exact hmember

/-- An array of children fits if there is room for it and for the children. -/
theorem fits_arr_toJson {children : List Node} {depth : Nat} (h : 2 ≤ depth + 1)
    (hchildren : ∀ room, depth + 1 = room + 2 → ∀ child ∈ children, child.toJson.Fits room) :
    (Json.arr (children.map toJson)).Fits depth := by
  obtain ⟨room, rfl⟩ : ∃ n, depth = n + 1 := ⟨depth - 1, by omega⟩
  exact Json.fits_arr.mpr (List.forall_mem_map.mpr (hchildren room rfl))

/-- **A tree needs no more room than the value it is read from, but for the arrays of children that
were left out.** -/
theorem fits_toJson_of_ofJson {value : Json} (hv : value.Ordered) {node : Node}
    (hread : ofJson value = .ok node) {depth : Nat} (hfits : value.Fits depth)
    (hroom : node.HasRoom depth) : node.toJson.Fits depth := by
  induction value using induction_childItems generalizing node depth with
  | step value ih =>
  cases hkind : kindOf? value with
  | none =>
    rw [ofJson_of_kindOf?_eq_none hkind] at hread
    cases hread
    exact hfits
  | some kind =>
    have hcanonical := canonicalHere_of_ofJson hv hread
    have hitem := forall_childList_of_ofJson (p := fun child => ∀ depth, value.Fits (depth + 2) →
      child.HasRoom depth → child.toJson.Fits depth) hv hread fun item hitem child hchild depth h =>
        ih item hitem (ordered_of_mem_childItems hv hitem) hchild (h.of_mem_childItems hitem)
    -- Only parents are written with members that were not there, and parents have room for them.
    have hparent (has : kind.hasChildren) : node.children? = some node.childList :=
      children?_eq_some_iff.mpr ⟨⟨kind, (kind?_of_ofJson hv hread).trans hkind, has⟩, rfl⟩
    have htwo (has : kind.hasChildren) : 2 ≤ depth := hroom.here (by rw [hparent has]; rfl)
    obtain ⟨members, draft, rfl, hreads, hnode⟩ := reads_of_ofJson hv hread hkind
    obtain ⟨normal, hnormal, hsorted, hget⟩ :=
      Json.exists_normalForm_eq (Json.ordered_obj.mp hv).1 hkind
    rw [← toJson_of_ofJson hv hread] at hnormal
    cases depth with
    | zero => exact absurd hfits Json.not_fits_obj_zero
    | succ depth =>
      rw [hnormal]
      refine Json.fits_obj.mpr fun entry hentry => ?_
      have hentry := Members.get?_of_mem hsorted.nodup hentry
      by_cases hchildren : kind.hasChildren ∧ entry.1 = "children"
      · obtain ⟨has, hname⟩ := hchildren
        have harray := get?_children_toJson hcanonical (hparent has)
        rw [hnormal, ← hname, Json.get?, hentry, Option.some.injEq] at harray
        rw [harray]
        refine fits_arr_toJson (htwo has) fun room hdepth child hchild => ?_
        rw [hdepth] at hfits hroom
        exact hitem child hchild room hfits (hroom.child hchild)
      rw [hget, if_neg hchildren] at hentry
      by_cases hproperties : kind.hasTag ∧ entry.1 = "properties"
      · rw [if_pos hproperties] at hentry
        rw [← Option.some.inj hentry]
        cases hfound : Members.get? members "properties" with
        | none =>
          have := htwo (Kind.hasChildren_of_hasTag hproperties.1)
          exact Json.fits_empty (by omega)
        | some properties => exact hfits.get? hfound
      · rw [if_neg hproperties] at hentry
        exact fits_normalMember hv hreads hfits (fun h => hchildren ⟨h.2, h.1⟩) hentry

/-! ## What is read from a text -/

/-- What is written for a tree that is read from a text has room for one array more than is read. -/
theorem fits_toJson_of_read {source : String} {tree : Node} (h : read source = .ok tree) :
    tree.toJson.Fits (Json.maxNesting + 1) ∧
      ∀ steps, tree.toJson.ParentBelow steps → 2 * steps + 2 ≤ Json.maxNesting + 1 := by
  obtain ⟨value, hv, hfits, hread⟩ := exists_of_read h
  have hbelow : ∀ steps, value.ParentBelow steps → 2 * steps + 2 ≤ Json.maxNesting + 1 := by
    intro steps hsteps
    have := hsteps.lt_nesting
    have := hfits.nesting_le
    rw [Json.maxNesting] at this ⊢
    omega
  refine ⟨fits_toJson_of_ofJson hv hread (hfits.mono (Nat.le_succ _)) ?_, fun steps hsteps => ?_⟩
  · exact fun path parent hat hparent =>
      hbelow path.length (parentBelow_of_at? hv hread hat hparent)
  · rw [toJson_of_ofJson hv hread] at hsteps
    exact hbelow steps (hsteps.of_normalForm hv)

/-- **A tree that was read is read again exactly if its roots and elements lie less than 63 steps
below the top.** -/
theorem exists_read_print_iff_of_read {source : String} {tree : Node} (h : read source = .ok tree) :
    (∃ again, read tree.print = .ok again) ↔
      ∀ path parent, tree.at? path = some parent → parent.children?.isSome → path.length < 63 := by
  obtain ⟨value, hv, hfits, hread⟩ := exists_of_read h
  have hcanonical := canonical_of_ofJson hv hread
  rw [exists_read_print_iff hcanonical (placed_of_ofJson hv hread) (fits_toJson_of_read h).1.held]
  constructor
  · intro hnesting path parent hat hparent
    have := hasRoom_nesting hcanonical path parent hat hparent
    rw [Json.maxNesting] at hnesting
    omega
  · intro hshallow
    refine (fits_toJson_of_ofJson hv hread hfits fun path parent hat hparent => ?_).nesting_le
    have := hshallow path parent hat hparent
    rw [Json.maxNesting]
    omega

end Hast.Node

/-! ## Roots in roots -/

/-- Roots in one another; the innermost leaves out its array of children. -/
def Json.nestedRoots : Nat → Json
  | 0 => .obj [("type", .str "root")]
  | n + 1 => .obj [("children", .arr [nestedRoots n]), ("type", .str "root")]

namespace Hast.Node

/-- The tree of `n + 1` roots in one another. -/
def nestedRoots : Nat → Node
  | 0 => .root [] none []
  | n + 1 => .root [nestedRoots n] none []

/-- Nested roots are in order. -/
theorem ordered_nestedRoots (n : Nat) : (Json.nestedRoots n).Ordered := by
  induction n with
  | zero => simp [Json.nestedRoots, Json.ordered_obj, Members.sorted_cons, Members.sorted_nil]
  | succ n ih =>
    have h : "children" < "type" := by decide
    simp [Json.nestedRoots, Json.ordered_obj, Json.ordered_arr, Members.sorted_cons,
      Members.sorted_nil, ih, h, -String.lt_iff_ltb]

/-- There are only types and arrays in them, and no numbers. -/
theorem words_nestedRoots (n : Nat) : (Json.nestedRoots n).Words := by
  induction n with
  | zero => simp [Json.nestedRoots, Json.words_obj]
  | succ n ih => simp [Json.nestedRoots, Json.words_obj, Json.words_arr, ih]

/-- Each root takes two levels, but the innermost takes one. -/
theorem nesting_nestedRoots (n : Nat) : (Json.nestedRoots n).nesting = 2 * n + 1 := by
  induction n with
  | zero => rfl
  | succ n ih =>
    simp only [Json.nestedRoots, Json.nesting, Json.nestingItems, Json.nestingMembers, ih]
    omega

/-- Nested roots are read as that tree. -/
theorem ofJson_nestedRoots (n : Nat) : ofJson (Json.nestedRoots n) = .ok (nestedRoots n) := by
  induction n with
  | zero => rfl
  | succ n ih =>
    simp [Json.nestedRoots, nestedRoots, ofJson, readMembers, ofJsonAll, ofDraft, ih,
      Kind.ofMembers?, Kind.ofName?, Kind.hasChildren, Members.get?_cons, Json.asString?, bind,
      Except.bind]

/-- The innermost root is the first child over and over. -/
theorem at?_nestedRoots (n : Nat) :
    (nestedRoots n).at? (List.replicate n 0) = some (.root [] none []) := by
  induction n with
  | zero => exact at?_nil _
  | succ n ih =>
    rw [List.replicate_succ, at?_cons]
    exact ih

/-- The text of up to 64 roots in one another is read. -/
theorem read_nestedRoots {n : Nat} (h : n ≤ 63) :
    read (Json.nestedRoots n).print = .ok (nestedRoots n) := by
  have hnesting : (Json.nestedRoots n).nesting ≤ Json.maxNesting := by
    rw [nesting_nestedRoots, Json.maxNesting]
    omega
  have hvalue := Json.readValue_print (words_nestedRoots n) hnesting
  rw [(ordered_nestedRoots n).sorted_eq] at hvalue
  exact read_of_readValue hvalue (ofJson_nestedRoots n)

/-- **What is written for 64 roots in one another is not read again.** -/
theorem not_read_print_nestedRoots : ¬ ∃ again, read (nestedRoots 63).print = .ok again := by
  rw [exists_read_print_iff_of_read (read_nestedRoots le_rfl)]
  intro h
  have := h _ _ (at?_nestedRoots 63) rfl
  rw [List.length_replicate] at this
  omega

end Hast.Node

end Hypermark
