import Mathlib.Data.List.Forall2
import Hypermark.Proofs.Hast.Fields
import Hypermark.Proofs.Hast.Position

/-!
# Trees that could have been read

A tree is canonical when it looks like one that was read: no uninterpreted member has the name of a
field of its node, every property is in the variant that reading picks, no opaque node has the type
of another kind, and all names are in order (`Canonical`).  It is placed when the numbers of its
positions fit into 64 bits (`Placed`).

Every tree that is read from an ordered value is both (`canonical_of_ofJson`, `placed_of_ofJson`).
-/

namespace Hypermark.Hast

/-! ## Properties -/

namespace PropertyValue

/-- Items that are read as a list of strings are those strings. -/
theorem map_str_of_strings? {items : List Json} {values : List String}
    (h : strings? items = some values) : values.map Json.str = items := by
  induction items generalizing values with
  | nil =>
    cases h
    rfl
  | cons item items ih =>
    cases item with
    | str value =>
      obtain ⟨rest, hrest, rfl⟩ := Option.map_eq_some_iff.mp h
      rw [List.map_cons, ih hrest]
    | _ => cases h

/-- Reading a property loses nothing. -/
theorem toJson_ofJson (value : Json) : (ofJson value).toJson = value := by
  cases value with
  | arr items =>
    rw [ofJson]
    split
    · next values hvalues => rw [toJson, map_str_of_strings? hvalues]
    · rfl
  | null | bool _ | num _ | str _ | obj _ => rfl

/-- The value is ordered, and in the variant that reading picks. -/
structure Canonical (value : PropertyValue) : Prop where
  variant : ofJson value.toJson = value
  ordered : value.toJson.Ordered

/-- The value of a property is canonical when it has been read. -/
theorem canonical_ofJson {value : Json} (h : value.Ordered) : (ofJson value).Canonical :=
  ⟨by rw [toJson_ofJson], by rwa [toJson_ofJson]⟩

/-- Strings are read as a list of strings. -/
theorem strings?_map_str (values : List String) : strings? (values.map Json.str) = some values := by
  induction values with
  | nil => rfl
  | cons value values ih => rw [List.map_cons, strings?, ih, Option.map_some]

/-- A list of strings is canonical. -/
theorem canonical_list (values : List String) : (list values).Canonical := by
  refine ⟨?_, ?_⟩
  · rw [toJson, ofJson, strings?_map_str]
  · rw [toJson, Json.ordered_arr]
    intro item hitem
    obtain ⟨value, _, rfl⟩ := List.mem_map.mp hitem
    exact Json.ordered_str

/-- So is a string. -/
theorem canonical_string (value : String) : (string value).Canonical := ⟨rfl, Json.ordered_str⟩

/-- So is a truth value. -/
theorem canonical_bool (value : Bool) : (bool value).Canonical := ⟨rfl, Json.ordered_bool⟩

/-- So is a number. -/
theorem canonical_number (value : JsonNumber) : (number value).Canonical := ⟨rfl, Json.ordered_num⟩

end PropertyValue

/-- The properties are in order and each is as it would be read. -/
structure PropertiesFit (properties : Properties) : Prop where
  sorted : Members.Sorted properties
  canonical : ∀ entry ∈ properties, entry.2.Canonical

/-- The empty list of properties fits. -/
theorem propertiesFit_nil : PropertiesFit [] := ⟨Members.sorted_nil, by simp⟩

/-- A single property fits if its value is canonical. -/
theorem propertiesFit_singleton {name : String} {value : PropertyValue} (h : value.Canonical) :
    PropertiesFit [(name, value)] := by
  refine ⟨List.pairwise_singleton _ _, fun entry hentry => ?_⟩
  rw [List.mem_singleton] at hentry
  subst hentry
  exact h

/-- A property with a canonical value may be set. -/
theorem propertiesFit_insert {name : String} {value : PropertyValue} {properties : Properties}
    (h : PropertiesFit properties) (hvalue : value.Canonical) :
    PropertiesFit (Members.insert name value properties) := by
  refine ⟨h.sorted.insert, fun entry hentry => ?_⟩
  rcases Members.mem_insert hentry with rfl | hentry
  · exact hvalue
  · exact h.canonical entry hentry

/-- Classes may be set, whatever their names are. -/
theorem propertiesFit_onlyClasses (names : List String) : PropertiesFit (onlyClasses names) :=
  propertiesFit_singleton (PropertyValue.canonical_list names)

/-- The members are in order, their values too, and none has the name of a field of the kind. -/
structure ExtraFits (kind : Kind) (extra : Members Json) : Prop where
  sorted : Members.Sorted extra
  unread : ∀ entry ∈ extra, kind.reads entry.1 = false
  ordered : ∀ entry ∈ extra, entry.2.Ordered

/-- The empty list of further members fits every kind. -/
theorem extraFits_nil (kind : Kind) : ExtraFits kind [] := ⟨Members.sorted_nil, by simp, by simp⟩

/-- The kind of node that a value is read as, if it is not kept as it is. -/
def kindOf? : Json → Option Kind
  | .obj members => Kind.ofMembers? members
  | _ => none

/-! ## Items of a `children` array -/

/-- The items of the `children` array of a value, if it has one. -/
def childItems (value : Json) : List Json :=
  match value.get? "children" with
  | some (.arr items) => items
  | _ => []

/-- The child items are those of the `children` array. -/
theorem childItems_of_get? {value : Json} {items : List Json}
    (h : value.get? "children" = some (.arr items)) : childItems value = items := by
  rw [childItems, h]

/-- A child item weighs less than the value that has it. -/
theorem weight_lt_of_mem_childItems {value item : Json} (h : item ∈ childItems value) :
    item.weight < value.weight := by
  unfold childItems at h
  split at h
  · next items hitems =>
    exact (Json.weight_le_weightItems h).trans_lt (Diagram.weightItems_children_lt hitems)
  · cases h

/-- What holds of a value when it holds of the items of its `children` array, holds of every value.
-/
theorem induction_childItems {P : Json → Prop}
    (step : ∀ value : Json, (∀ item ∈ childItems value, P item) → P value) (value : Json) :
    P value := by
  induction hn : value.weight using Nat.strong_induction_on generalizing value with
  | _ n ih =>
    subst hn
    exact step value fun item h => ih _ (weight_lt_of_mem_childItems h) item rfl

/-- A child item is ordered if the value is. -/
theorem ordered_of_mem_childItems {value item : Json} (h : value.Ordered)
    (hitem : item ∈ childItems value) : item.Ordered := by
  unfold childItems at hitem
  split at hitem
  · next items hitems =>
    cases value with
    | obj members => exact Json.ordered_arr.mp (h.get? hitems) item hitem
    | _ => cases hitems
  · cases hitem

/-! ## Canonical trees -/

namespace Node

/-- The kind of a node, if it is not opaque. -/
def kind? : Node → Option Kind
  | root .. => some .root
  | element .. => some .element
  | text .. => some .text
  | comment .. => some .comment
  | raw .. => some .raw
  | other _ => none

/-- The properties of an element; other nodes have none. -/
def properties : Node → Properties
  | element _ properties .. => properties
  | _ => []

/-- The members of a node that are not interpreted. -/
def extra : Node → Members Json
  | root _ _ extra => extra
  | element _ _ _ _ extra => extra
  | text _ _ extra => extra
  | comment _ _ extra => extra
  | raw _ _ extra => extra
  | other _ => []

/-- The position of a node, if it has one. -/
def position? : Node → Option Position
  | root _ position _ => position
  | element _ _ _ position _ => position
  | text _ position _ => position
  | comment _ position _ => position
  | raw _ position _ => position
  | other _ => none

/-- The node, without its children, looks like one that was read. -/
def CanonicalHere : Node → Prop
  | root _ _ extra => ExtraFits .root extra
  | element _ properties _ _ extra => PropertiesFit properties ∧ ExtraFits .element extra
  | text _ _ extra => ExtraFits .text extra
  | comment _ _ extra => ExtraFits .comment extra
  | raw _ _ extra => ExtraFits .raw extra
  | other value => value.Ordered ∧ kindOf? value = none

/-- The tree looks like one that was read. -/
def Canonical : Node → Prop := Everywhere CanonicalHere

/-- The position of the node fits. -/
def PlacedHere (node : Node) : Prop := ∀ position ∈ node.position?, position.Fits

/-- Every position in the tree fits. -/
def Placed : Node → Prop := Everywhere PlacedHere

/-- A node that is not opaque looks like one that was read if its properties and its further members
do. -/
theorem canonicalHere_iff {node : Node} {kind : Kind} (h : node.kind? = some kind) :
    node.CanonicalHere ↔ PropertiesFit node.properties ∧ ExtraFits kind node.extra := by
  cases node with
  | other => cases h
  | _ =>
    cases h
    simp [CanonicalHere, properties, extra, propertiesFit_nil]

/-- Only an opaque node has no kind. -/
theorem kind?_eq_none_iff {node : Node} : node.kind? = none ↔ ∃ value, node = other value := by
  cases node <;> simp [kind?]

/-- Whether a node looks like one that was read is not a matter of its children. -/
theorem canonicalHere_ignoresChildren : IgnoresChildren CanonicalHere := by
  intro node children h
  cases node <;> exact h

/-- Nor is whether its position fits. -/
theorem placedHere_ignoresChildren : IgnoresChildren PlacedHere := by
  intro node children h
  cases node <;> exact h

/-- A text without further members looks like one that was read. -/
theorem canonical_text (value : String) (position : Option Position) :
    (text value position []).Canonical :=
  ⟨extraFits_nil .text, by simp⟩

/-- So does raw markup without further members. -/
theorem canonical_raw (value : String) (position : Option Position) :
    (raw value position []).Canonical :=
  ⟨extraFits_nil .raw, by simp⟩

/-- So does a text of its value alone. -/
theorem canonical_plain (value : String) : (plain value).Canonical := canonical_text value none

/-- So does an element without further members, if its properties fit and its children look so
too. -/
theorem canonical_tag {tagName : String} {properties : Properties} {children : List Node}
    {position : Option Position} (h : PropertiesFit properties)
    (hchildren : ∀ child ∈ children, child.Canonical) :
    (tag tagName properties children position).Canonical :=
  ⟨⟨h, extraFits_nil .element⟩, hchildren⟩

/-- A text of its value alone has no position that could not fit. -/
theorem placed_plain (value : String) : (plain value).Placed :=
  ⟨by simp [PlacedHere, plain, position?], by simp⟩

/-- Nor has an element that is made without one, if its children have none. -/
theorem placed_tag {tagName : String} {properties : Properties} {children : List Node}
    (h : ∀ child ∈ children, child.Placed) : (tag tagName properties children none).Placed :=
  ⟨by simp [PlacedHere, tag, position?], h⟩

/-! ## Lists of nodes -/

/-- The values of a list of nodes are those of each. -/
@[simp] theorem toJsonAll_eq_map (nodes : List Node) : toJsonAll nodes = nodes.map toJson := by
  induction nodes with
  | nil => rfl
  | cons node nodes ih => rw [toJsonAll, ih, List.map_cons]

/-- What is written for a list of nodes is what is written for each. -/
@[simp] theorem writtenAll_eq_map (nodes : List Node) : writtenAll nodes = nodes.map written := by
  induction nodes with
  | nil => rfl
  | cons node nodes ih => rw [writtenAll, ih, List.map_cons]

/-- Reading a list is reading its items one by one. -/
theorem ofJsonAll_eq_ok_iff {values : List Json} {nodes : List Node} :
    ofJsonAll values = .ok nodes ↔
      List.Forall₂ (fun value node => ofJson value = .ok node) values nodes := by
  induction values generalizing nodes with
  | nil =>
    rw [ofJsonAll, List.forall₂_nil_left_iff]
    exact ⟨fun h => (Except.ok.inj h).symm, fun h => h ▸ rfl⟩
  | cons value values ih =>
    rw [ofJsonAll, List.forall₂_cons_left_iff]
    simp only [bind_eq_ok_iff, ih, Except.ok.injEq]
    exact ⟨fun ⟨node, hnode, nodes, hnodes, h⟩ => ⟨node, nodes, hnode, hnodes, h.symm⟩,
      fun ⟨node, nodes, hnode, hnodes, h⟩ => ⟨node, hnode, nodes, hnodes, h.symm⟩⟩

/-- A list can be read if all of its items can. -/
theorem exists_ofJsonAll_iff {values : List Json} :
    (∃ nodes, ofJsonAll values = .ok nodes) ↔
      ∀ value ∈ values, ∃ node, ofJson value = .ok node := by
  induction values with
  | nil => simp [ofJsonAll]
  | cons value values ih =>
    rw [List.forall_mem_cons, ← ih]
    simp only [ofJsonAll, bind_eq_ok_iff, Except.ok.injEq]
    exact ⟨fun ⟨_, node, hnode, nodes, hnodes, _⟩ => ⟨⟨node, hnode⟩, nodes, hnodes⟩,
      fun ⟨⟨node, hnode⟩, nodes, hnodes⟩ => ⟨_, node, hnode, nodes, hnodes, rfl⟩⟩

/-- What comes out of a list of values has the property that comes out of each. -/
theorem forall_of_ofJsonAll {p : Node → Prop} {values : List Json} {nodes : List Node}
    (h : ofJsonAll values = .ok nodes)
    (hp : ∀ value ∈ values, ∀ node, ofJson value = .ok node → p node) : ∀ node ∈ nodes, p node := by
  have hall := ofJsonAll_eq_ok_iff.mp h
  clear h
  induction hall with
  | nil => simp
  | cons hread _ ih =>
    obtain ⟨hfirst, hrest⟩ := List.forall_mem_cons.mp hp
    exact List.forall_mem_cons.mpr ⟨hfirst _ hread, ih hrest⟩

/-! ## What is read -/

/-- A value is read as an opaque node exactly when it has no kind. -/
theorem ofJson_of_kindOf?_eq_none {value : Json} (h : kindOf? value = none) :
    ofJson value = .ok (other value) := by
  cases value with
  | obj members =>
    rw [kindOf?] at h
    rw [ofJson, h]
  | null | bool _ | num _ | str _ | arr _ => rw [ofJson]; simp

/-- Properties fit when they have been read. -/
theorem propertiesFit_of_readProperties {value : Json} (hv : value.Ordered)
    {properties : Properties} (h : readProperties value = .ok properties) :
    PropertiesFit properties := by
  cases value with
  | obj members =>
    cases h
    obtain ⟨hsorted, hvalues⟩ := Json.ordered_obj.mp hv
    refine ⟨hsorted.map, fun entry hentry => ?_⟩
    obtain ⟨read, hread, rfl⟩ := List.mem_map.mp hentry
    exact PropertyValue.canonical_ofJson (hvalues read hread)
  | null | bool _ | num _ | str _ | arr _ => cases h

/-- An object with a kind is read as a node of that kind, from what is found in its members. -/
theorem reads_of_ofJson {value : Json} (hv : value.Ordered) {node : Node}
    (h : ofJson value = .ok node) {kind : Kind} (hkind : kindOf? value = some kind) :
    ∃ members draft, value = .obj members ∧ Reads kind {} members draft ∧
      ofDraft kind draft = .ok node := by
  cases value with
  | obj members =>
    rw [kindOf?] at hkind
    rw [ofJson, hkind] at h
    obtain ⟨draft, hdraft, hnode⟩ := bind_eq_ok_iff.mp h
    rw [readMembers_eq_ok_iff (Json.ordered_obj.mp hv).1.nodup] at hdraft
    exact ⟨members, draft, rfl, hdraft, hnode⟩
  | null | bool _ | num _ | str _ | arr _ => cases hkind

/-- A node is made unless its tag name or its value is missing. -/
theorem exists_ofDraft_iff {kind : Kind} {draft : Draft} :
    (∃ node, ofDraft kind draft = .ok node) ↔
      (kind.hasTag → draft.tagName.isSome) ∧ (kind.hasValue → draft.value.isSome) := by
  obtain ⟨tagName, _, _, _, value, _⟩ := draft
  cases kind <;> cases tagName <;> cases value <;> simp [ofDraft, Kind.hasTag, Kind.hasValue]

/-- A node is of the kind it was read as. -/
theorem kind?_of_ofDraft {kind : Kind} {draft : Draft} {node : Node}
    (h : ofDraft kind draft = .ok node) : node.kind? = some kind := by
  unfold ofDraft at h
  split at h <;> cases h <;> rfl

/-- Its position is the one that was read. -/
theorem position?_of_ofDraft {kind : Kind} {draft : Draft} {node : Node}
    (h : ofDraft kind draft = .ok node) : node.position? = draft.position := by
  unfold ofDraft at h
  split at h <;> cases h <;> rfl

/-- Its further members were collected with the last one in front, and are turned round. -/
theorem extra_of_ofDraft {kind : Kind} {draft : Draft} {node : Node}
    (h : ofDraft kind draft = .ok node) : node.extra = draft.extra.reverse := by
  unfold ofDraft at h
  split at h <;> cases h <;> rfl

/-- Only an element keeps the properties that were read. -/
theorem properties_of_ofDraft {kind : Kind} {draft : Draft} {node : Node}
    (h : ofDraft kind draft = .ok node) :
    node.properties = if kind.hasTag then draft.properties else [] := by
  unfold ofDraft at h
  split at h <;> cases h <;> rfl

/-- Only a root or an element keeps the children that were read. -/
theorem childList_of_ofDraft {kind : Kind} {draft : Draft} {node : Node}
    (h : ofDraft kind draft = .ok node) :
    node.childList = if kind.hasChildren then draft.children else [] := by
  unfold ofDraft at h
  split at h <;> cases h <;> rfl

/-- An opaque node is read from the value that it keeps. -/
theorem eq_of_ofJson_eq_other {value kept : Json} (h : ofJson value = .ok (other kept)) :
    kept = value := by
  cases hkind : kindOf? value with
  | none =>
    rw [ofJson_of_kindOf?_eq_none hkind] at h
    cases h
    rfl
  | some kind =>
    cases value with
    | obj members =>
      rw [kindOf?] at hkind
      rw [ofJson, hkind] at h
      obtain ⟨draft, _, hnode⟩ := bind_eq_ok_iff.mp h
      cases kind?_of_ofDraft hnode
    | null | bool _ | num _ | str _ | arr _ => cases hkind

section

variable {value : Json} {node : Node}

/-- A node that is read is canonical, its children aside. -/
theorem canonicalHere_of_ofJson (hv : value.Ordered) (h : ofJson value = .ok node) :
    node.CanonicalHere := by
  cases hkind : kindOf? value with
  | none =>
    rw [ofJson_of_kindOf?_eq_none hkind] at h
    cases h
    exact ⟨hv, hkind⟩
  | some kind =>
    obtain ⟨members, draft, rfl, hreads, hnode⟩ := reads_of_ofJson hv h hkind
    obtain ⟨hsorted, hvalues⟩ := Json.ordered_obj.mp hv
    -- The draft is given field by field; only elements take over its properties.
    rw [canonicalHere_iff (kind?_of_ofDraft hnode)]
    refine ⟨?_, ?_⟩
    · have hproperties := hreads.properties
      rw [properties_of_ofDraft hnode]
      split
      · next htag =>
        rw [htag, FieldIs, if_pos rfl] at hproperties
        split at hproperties
        · next found hfound =>
          exact propertiesFit_of_readProperties (hv.get? hfound) hproperties
        · rw [hproperties]
          exact propertiesFit_nil
      · exact propertiesFit_nil
    · -- The rest is what the filter lets through, and that is still in order.
      rw [extra_of_ofDraft hnode, hreads.extra, List.append_nil, List.reverse_reverse]
      refine ⟨hsorted.filter _, fun entry hentry => ?_, fun entry hentry => ?_⟩
      · simpa using (List.mem_filter.mp hentry).2
      · exact hvalues entry (List.mem_filter.mp hentry).1

/-- The position of a node that is read fits. -/
theorem placedHere_of_ofJson (hv : value.Ordered) (h : ofJson value = .ok node) :
    node.PlacedHere := by
  cases hkind : kindOf? value with
  | none =>
    rw [ofJson_of_kindOf?_eq_none hkind] at h
    cases h
    simp [PlacedHere, position?]
  | some kind =>
    obtain ⟨members, draft, rfl, hreads, hnode⟩ := reads_of_ofJson hv h hkind
    have hposition := hreads.position
    rw [FieldIs, if_pos rfl] at hposition
    rw [PlacedHere, position?_of_ofDraft hnode]
    split at hposition
    · exact Position.fits_of_ofOptionalJson hposition
    · simp [hposition]

/-- The children of a node that is read are read from the items of the `children` array. -/
theorem forall_childList_of_ofJson {p : Node → Prop} (hv : value.Ordered)
    (h : ofJson value = .ok node)
    (hp : ∀ item ∈ childItems value, ∀ child, ofJson item = .ok child → p child) :
    ∀ child ∈ node.childList, p child := by
  cases hkind : kindOf? value with
  | none =>
    rw [ofJson_of_kindOf?_eq_none hkind] at h
    cases h
    simp
  | some kind =>
    obtain ⟨members, draft, rfl, hreads, hnode⟩ := reads_of_ofJson hv h hkind
    have hchildren := hreads.children
    rw [childList_of_ofDraft hnode]
    split
    · next hhas =>
      rw [hhas, FieldIs, if_pos rfl] at hchildren
      split at hchildren
      · next found hfound =>
        cases found with
        | arr items =>
          have hitems : (Json.obj members).get? "children" = some (.arr items) := hfound
          rw [childItems_of_get? hitems] at hp
          exact forall_of_ofJsonAll hchildren hp
        | _ => cases hchildren
      · simp [hchildren]
    · simp

/-- What every node has when it is read, every node of a tree has that is read. -/
theorem everywhere_of_ofJson {p : Node → Prop}
    (hp : ∀ {value node}, value.Ordered → ofJson value = .ok node → p node) (hv : value.Ordered)
    (h : ofJson value = .ok node) : Everywhere p node := by
  induction value using induction_childItems generalizing node with
  | step value ih =>
    refine ⟨hp hv h, forall_childList_of_ofJson hv h fun item hitem child hchild => ?_⟩
    exact ih item hitem (ordered_of_mem_childItems hv hitem) hchild

/-- **A tree that is read is canonical.** -/
theorem canonical_of_ofJson (hv : value.Ordered) (h : ofJson value = .ok node) : node.Canonical :=
  everywhere_of_ofJson canonicalHere_of_ofJson hv h

/-- **The positions of a tree that is read fit.** -/
theorem placed_of_ofJson (hv : value.Ordered) (h : ofJson value = .ok node) : node.Placed :=
  everywhere_of_ofJson placedHere_of_ofJson hv h

end

/-- The node is read from a value. -/
def Decoded (node : Node) : Prop := ∃ value : Json, value.Ordered ∧ ofJson value = .ok node

/-- A tree that was read looks like one that was read. -/
theorem Decoded.canonical {node : Node} (h : node.Decoded) : node.Canonical := by
  obtain ⟨value, hvalue, hread⟩ := h
  exact canonical_of_ofJson hvalue hread

/-- Its positions fit. -/
theorem Decoded.placed {node : Node} (h : node.Decoded) : node.Placed := by
  obtain ⟨value, hvalue, hread⟩ := h
  exact placed_of_ofJson hvalue hread

end Node

end Hypermark.Hast
