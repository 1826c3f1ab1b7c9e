import Hypermark.Proofs.Hast.Codec
import Hypermark.Proofs.Hast.Grammar

/-!
# What becomes of a value that is read and written

A value that is read as a tree and written again keeps all its members, up to a normal form
(`Json.normalForm`): children and properties that are missing are empty, a position is an object of
two objects, and a position that is `null` is left out.

Writing what was read gives the normal form, which is read as the same tree and is its own normal
form (`toJson_normalForm`).
-/

namespace Hypermark

namespace Members

variable {α : Type} {members : Members α} {name other : String} {value : α}

/-- Adds the member `name`, if there should be one and there is none. -/
def withDefault (wanted : Bool) (name : String) (value : α) (members : Members α) : Members α :=
  if wanted ∧ get? members name = none then insert name value members else members

/-- Under the name of a default is what was there, or else the default. -/
theorem get?_withDefault {wanted : Bool} :
    get? (withDefault wanted name value members) other =
      if wanted ∧ other = name then some ((get? members name).getD value)
      else get? members other := by
  unfold withDefault
  by_cases hother : other = name
  · subst hother
    cases hget : get? members other <;> cases wanted <;> simp [hget, get?_insert]
  · split
    · rw [get?_insert, if_neg hother, if_neg (by simp [hother])]
    · rw [if_neg (by simp [hother])]

/-- Members stay in order when a default is added. -/
theorem Sorted.withDefault (h : Sorted members) {wanted : Bool} :
    Sorted (withDefault wanted name value members) := by
  unfold Members.withDefault
  split
  · exact h.insert
  · exact h

/-- Replaces or drops the values one by one. -/
def collect {β : Type} (f : String → α → Option β) (members : Members α) : Members β :=
  members.filterMap fun entry => (f entry.1 entry.2).map fun value => (entry.1, value)

/-- Under each name is what its value has become, if there is anything left of it. -/
theorem get?_collect {β : Type} {f : String → α → Option β} (h : members.names.Nodup) :
    get? (collect f members) name = (get? members name).bind (f name) := by
  unfold collect
  induction members with
  | nil => rfl
  | cons entry rest ih =>
    obtain ⟨n, v⟩ := entry
    obtain ⟨hn, hrest⟩ := List.nodup_cons.mp h
    have ih := ih hrest
    rw [List.filterMap_cons, get?_cons]
    by_cases hname : name = n
    · subst hname
      have hnone : get? rest name = none :=
        get?_eq_none_iff.mpr fun e he heq => hn (List.mem_map.mpr ⟨e, he, heq⟩)
      rw [hnone] at ih
      rw [if_pos rfl, Option.bind_some]
      cases f name v with
      | none => exact ih
      | some value => simp [get?_cons]
    · rw [if_neg hname, ← ih]
      cases f n v with
      | none => rfl
      | some value => simp [get?_cons, hname]

/-- Members stay in order when their values are replaced or dropped. -/
theorem Sorted.collect {β : Type} {f : String → α → Option β} (h : Sorted members) :
    Sorted (collect f members) := by
  refine List.Pairwise.filterMap _ (fun a b hab a' ha b' hb => ?_) h
  obtain ⟨_, _, rfl⟩ := Option.map_eq_some_iff.mp ha
  obtain ⟨_, _, rfl⟩ := Option.map_eq_some_iff.mp hb
  exact hab

end Members

open Hast

namespace Json

/-! ## The normal form -/

/-- The members of a point that are kept. -/
def pointMember (name : String) (value : Json) : Option Json :=
  if name = "line" ∨ name = "column" ∨ name = "offset" ∧ value ≠ .null then some value else none

/-- A point as an object of its line, its column, and its offset unless that is `null`. -/
def normalPoint : Json → Json
  | .obj members => .obj (Members.collect pointMember members)
  | .arr [line, column] => .obj [("column", column), ("line", line)]
  | .arr [line, column, offset] =>
    if offset = .null then .obj [("column", column), ("line", line)]
    else .obj [("column", column), ("line", line), ("offset", offset)]
  | value => value

/-- The members of a position that are kept, and what becomes of them. -/
def positionMember (name : String) (value : Json) : Option Json :=
  if name = "start" ∨ name = "end" then some (normalPoint value) else none

/-- A position as an object of its start and its end. -/
def normalPosition : Json → Json
  | .obj members => .obj (Members.collect positionMember members)
  | .arr [start, stop] => .obj [("end", normalPoint stop), ("start", normalPoint start)]
  | value => value

mutual

/-- The value with its children in normal form, its position as an object of objects, and what may
be left out filled in; a value that is no node of one of the five kinds stays as it is. -/
def normalForm : Json → Json
  | .obj members =>
    match Kind.ofMembers? members with
    | none => .obj members
    | some kind =>
      .obj (Members.withDefault kind.hasChildren "children" (.arr [])
        (Members.withDefault kind.hasTag "properties" (.obj []) (normalMembers kind members)))
  | value => value

/-- The members of a node, without those that are to be filled in. -/
def normalMembers (kind : Kind) : List (String × Json) → List (String × Json)
  | [] => []
  | (name, value) :: rest =>
    if name = "children" ∧ kind.hasChildren then
      match value with
      | .arr items => (name, .arr (normalItems items)) :: normalMembers kind rest
      | value => (name, value) :: normalMembers kind rest
    else if name = "position" then
      if value = .null then normalMembers kind rest
      else (name, normalPosition value) :: normalMembers kind rest
    else (name, value) :: normalMembers kind rest

/-- The items of a `children` array in normal form. -/
def normalItems : List Json → List Json
  | [] => []
  | item :: items => normalForm item :: normalItems items

end

/-- Items are brought into normal form one by one. -/
@[simp] theorem normalItems_eq_map (items : List Json) :
    normalItems items = items.map normalForm := by
  induction items with
  | nil => rfl
  | cons item items ih => rw [normalItems, ih, List.map_cons]

/-- What becomes of a `children` array. -/
def normalChildren : Json → Json
  | .arr items => .arr (items.map normalForm)
  | value => value

/-- What becomes of one member of a node of the kind. -/
def normalMember (kind : Kind) (name : String) (value : Json) : Option Json :=
  if name = "children" ∧ kind.hasChildren then some (normalChildren value)
  else if name = "position" then if value = .null then none else some (normalPosition value)
  else some value

/-- The members of a node are brought into normal form one by one. -/
theorem normalMembers_eq (kind : Kind) (members : Members Json) :
    normalMembers kind members = Members.collect (normalMember kind) members := by
  unfold Members.collect
  induction members with
  | nil => rfl
  | cons entry rest ih =>
    obtain ⟨name, value⟩ := entry
    rw [normalMembers.eq_def, List.filterMap_cons]
    dsimp only
    rw [ih]
    unfold normalMember
    by_cases hchildren : name = "children" ∧ kind.hasChildren
    · rw [if_pos hchildren, if_pos hchildren]
      cases value <;> simp [normalChildren]
    rw [if_neg hchildren, if_neg hchildren]
    by_cases hposition : name = "position"
    · rw [if_pos hposition, if_pos hposition]
      by_cases hnull : value = .null <;> simp [hnull]
    · rw [if_neg hposition, if_neg hposition]
      rfl

/-- A value that is no node of one of the five kinds is in normal form. -/
theorem normalForm_of_kindOf?_eq_none {value : Json} (h : kindOf? value = none) :
    normalForm value = value := by
  cases value with
  | obj members =>
    rw [kindOf?] at h
    rw [normalForm, h]
  | null | bool | num | str | arr => simp only [normalForm]

/-- The normal form of a node is an object in order, with these members. -/
theorem exists_normalForm_eq {members : Members Json} (h : members.Sorted) {kind : Kind}
    (hkind : Kind.ofMembers? members = some kind) :
    ∃ normal : Members Json, normalForm (.obj members) = .obj normal ∧ normal.Sorted ∧
      ∀ name, Members.get? normal name =
        if kind.hasChildren ∧ name = "children" then
          some (((Members.get? members "children").map normalChildren).getD (.arr []))
        else if kind.hasTag ∧ name = "properties" then
          some ((Members.get? members "properties").getD (.obj []))
        else (Members.get? members name).bind (normalMember kind name) := by
  refine ⟨_, by rw [normalForm, hkind], ?_, fun name => ?_⟩
  · rw [normalMembers_eq]
    exact h.collect.withDefault.withDefault
  · simp only [normalMembers_eq, Members.get?_withDefault, Members.get?_collect h.nodup]
    by_cases hchildren : kind.hasChildren ∧ name = "children"
    · have hmember (value : Json) :
          normalMember kind "children" value = some (normalChildren value) :=
        if_pos ⟨rfl, hchildren.1⟩
      rw [if_pos hchildren, if_pos hchildren]
      cases Members.get? members "children" <;> simp [hmember]
    rw [if_neg hchildren, if_neg hchildren]
    by_cases hproperties : kind.hasTag ∧ name = "properties"
    · have hmember (value : Json) : normalMember kind "properties" value = some value := by
        simp [normalMember]
      rw [if_pos hproperties, if_pos hproperties]
      cases Members.get? members "properties" <;> simp [hmember]
    · rw [if_neg hproperties, if_neg hproperties]

end Json

open Hast.Node (FieldIs)

/-! ## Positions -/

/-- The member that is kept as the offset of a point. -/
theorem Point.get?_offset {members : Members Json} {offset : Option Nat}
    (h : FieldIs true members "offset" Json.toOptionalSize none offset) :
    (Members.get? members "offset").bind (Json.pointMember "offset") = offset.map Json.nat := by
  rw [FieldIs, if_pos rfl] at h
  split at h
  · next value hvalue =>
    rw [hvalue, Option.bind_some]
    rcases Json.toOptionalSize_eq_ok_iff.mp h with ⟨rfl, rfl⟩ | ⟨n, hn, rfl⟩
    · simp [Json.pointMember]
    · rw [(Json.toSize_eq_ok_iff.mp hn).1]
      simp [Json.pointMember, Json.nat]
  · next hnone =>
    rw [hnone, h]
    rfl

/-- The normal form of a point is the value of the point that it is read as. -/
theorem Point.normalPoint_of_ofJson {value : Json} {point : Point} (h : value.Ordered)
    (hpoint : ofJson value = .ok point) :
    value.normalPoint = .obj (Members.ofList point.members) := by
  cases (ofJson_eq_ok_iff h).mp hpoint with
  | @object found _ _ hline line_read hcolumn column_read hoffset =>
    rw [(Json.toSize_eq_ok_iff.mp line_read).1] at hline
    rw [(Json.toSize_eq_ok_iff.mp column_read).1] at hcolumn
    rw [Json.normalPoint]
    congr 1
    have hsorted := (Json.ordered_obj.mp h).1
    refine Members.eq_of_get?_eq hsorted.collect Members.sorted_ofList fun name => ?_
    rw [Members.get?_collect hsorted.nodup, ofList_members]
    by_cases hname : name = "line"
    · subst hname
      simp [hline, Members.get?_cons, Json.pointMember]
    by_cases hname' : name = "column"
    · subst hname'
      simp [hcolumn, Members.get?_cons, Json.pointMember]
    by_cases hname'' : name = "offset"
    · subst hname''
      rw [get?_offset hoffset]
      cases point.offset <;> simp [Members.get?_cons]
    · have hmember (found : Json) : Json.pointMember name found = none := by
        simp [Json.pointMember, hname, hname', hname'']
      cases Members.get? found name <;> cases point.offset <;>
        simp [hmember, Members.get?_cons, hname, hname', hname'']
  | pair line_read column_read hoffset =>
    rw [ofList_members, (Json.toSize_eq_ok_iff.mp line_read).1,
      (Json.toSize_eq_ok_iff.mp column_read).1, hoffset]
    rfl
  | triple line_read column_read offset_read =>
    rw [ofList_members, (Json.toSize_eq_ok_iff.mp line_read).1,
      (Json.toSize_eq_ok_iff.mp column_read).1]
    rcases Json.toOptionalSize_eq_ok_iff.mp offset_read with ⟨rfl, hoffset⟩ | ⟨n, hn, hoffset⟩
    · rw [hoffset]
      rfl
    · rw [hoffset, (Json.toSize_eq_ok_iff.mp hn).1]
      rfl

/-- The normal form of a position is the value of the position that it is read as. -/
theorem Position.normalPosition_of_ofJson {value : Json} {position : Position} (h : value.Ordered)
    (hposition : ofJson value = .ok position) : value.normalPosition = position.toJson := by
  rw [toJson_eq]
  cases (ofJson_eq_ok_iff h).mp hposition with
  | @object found _ _ hstart start_read hstop stop_read =>
    have start_eq := Point.normalPoint_of_ofJson (h.get? hstart) start_read
    have stop_eq := Point.normalPoint_of_ofJson (h.get? hstop) stop_read
    rw [Json.normalPosition]
    congr 1
    have hsorted := (Json.ordered_obj.mp h).1
    refine Members.eq_of_get?_eq hsorted.collect ?_ fun name => ?_
    · exact (Json.ordered_obj.mp (toJson_eq position ▸ position.ordered_toJson)).1
    rw [Members.get?_collect hsorted.nodup]
    by_cases hname : name = "start"
    · subst hname
      simp [hstart, Members.get?_cons, Json.positionMember, start_eq]
    by_cases hname' : name = "end"
    · subst hname'
      simp [hstop, Members.get?_cons, Json.positionMember, stop_eq]
    · have hmember (found : Json) : Json.positionMember name found = none := by
        simp [Json.positionMember, hname, hname']
      cases Members.get? found name <;> simp [hmember, Members.get?_cons, hname, hname']
  | pair start_read stop_read =>
    have hitems := Json.ordered_arr.mp h
    rw [Json.normalPosition, Point.normalPoint_of_ofJson (hitems _ (by simp)) start_read,
      Point.normalPoint_of_ofJson (hitems _ (by simp)) stop_read]

/-! ## Nodes -/

namespace Hast.Node

/-- The members of a node that are interpreted, by name. -/
theorem get?_fields_of_ofDraft {kind : Kind} {draft : Draft} {node : Node}
    (h : ofDraft kind draft = .ok node) {children : List Json} {position : Option Json}
    {name : String} :
    Members.get? (node.fields children position) name =
      if name = "type" then some (.str kind.typeName)
      else if name = "position" then position
      else if kind.hasChildren ∧ name = "children" then some (.arr children)
      else if kind.hasTag ∧ name = "tagName" then draft.tagName.map .str
      else if kind.hasTag ∧ name = "properties" then some (propertiesJson draft.properties)
      else if kind.hasValue ∧ name = "value" then draft.value.map .str
      else none := by
  unfold ofDraft at h
  split at h <;> cases h <;> cases position <;>
    simp [fields, rootMembers, elementMembers, leafMembers, Members.get?_cons, Kind.typeName,
      Kind.hasChildren, Kind.hasTag, Kind.hasValue, *] <;>
    grind

section Members

variable {members : Members Json} {kind : Kind} {name : String}

/-- The position in the normal form is the one that is read, written out. -/
theorem get?_normalPosition (h : (Json.obj members).Ordered) {position : Option Position}
    (hfield : FieldIs true members "position" Position.ofOptionalJson none position) :
    (Members.get? members "position").bind (Json.normalMember kind "position")
      = position.map Position.toJson := by
  rw [FieldIs, if_pos rfl] at hfield
  split at hfield
  · next value hvalue =>
    rw [hvalue, Option.bind_some]
    rcases Position.ofOptionalJson_eq_ok_iff.mp hfield with ⟨rfl, rfl⟩ | ⟨p, hp, rfl⟩
    · simp [Json.normalMember]
    · have hnull : value ≠ .null := by
        rintro rfl
        cases hp
      simp [Json.normalMember, hnull, Position.normalPosition_of_ofJson (h.get? hvalue) hp]
  · next hnone =>
    rw [hnone, hfield]
    rfl

/-- The children in the normal form are those that are read, written out. -/
theorem get?_normalChildren {children : List Node}
    (hfield : FieldIs true members "children" readChildren [] children)
    (hitems : ∀ item ∈ childItems (.obj members), ∀ child, ofJson item = .ok child →
      child.toJson = item.normalForm) :
    ((Members.get? members "children").map Json.normalChildren).getD (.arr [])
      = .arr (children.map toJson) := by
  rw [FieldIs, if_pos rfl] at hfield
  split at hfield
  · next value hvalue =>
    rw [hvalue]
    cases value with
    | arr items =>
      have hget : (Json.obj members).get? "children" = some (.arr items) := hvalue
      rw [childItems_of_get? hget] at hitems
      rw [Option.map_some, Option.getD_some, Json.normalChildren]
      congr 1
      have hall := ofJsonAll_eq_ok_iff.mp hfield
      clear hfield hvalue hget
      induction hall with
      | nil => rfl
      | cons hread _ ih =>
        obtain ⟨hfirst, hrest⟩ := List.forall_mem_cons.mp hitems
        rw [List.map_cons, List.map_cons, hfirst _ hread, ih hrest]
    | null | bool | num | str | obj => cases hfield
  · next hnone =>
    rw [hnone, hfield]
    rfl

/-- A string that is read is left as it is. -/
theorem get?_normalString {text : Option String}
    (hfield : FieldIs true members name (fun value => (readString value).map some) none text)
    (hchildren : name ≠ "children") (hposition : name ≠ "position") :
    (Members.get? members name).bind (Json.normalMember kind name) = text.map .str := by
  rw [FieldIs, if_pos rfl] at hfield
  split at hfield
  · next value hvalue =>
    obtain ⟨text, htext, rfl⟩ := map_eq_ok_iff.mp hfield
    rw [hvalue, readString_eq_ok_iff.mp htext]
    simp [Json.normalMember, hchildren, hposition]
  · next hnone =>
    rw [hnone, hfield]
    rfl

/-- The properties in the normal form are those that are read, written out. -/
theorem get?_normalProperties {properties : Properties}
    (hfield : FieldIs true members "properties" readProperties [] properties) :
    (Members.get? members "properties").getD (.obj []) = propertiesJson properties := by
  rw [FieldIs, if_pos rfl] at hfield
  split at hfield
  · next value hvalue =>
    rw [hvalue]
    cases value with
    | obj values =>
      cases hfield
      simp [propertiesJson, PropertyValue.toJson_ofJson, Function.comp_def]
    | null | bool | num | str | arr => cases hfield
  · next hnone =>
    rw [hnone, hfield]
    rfl

end Members

/-- The value of a tree is the normal form of every value that it is read from. -/
theorem toJson_of_ofJson {value : Json} (h : value.Ordered) {node : Node}
    (hread : ofJson value = .ok node) : node.toJson = value.normalForm := by
  induction value using induction_childItems generalizing node with
  | step value ih =>
  cases hkind : kindOf? value with
  | none =>
    rw [ofJson_of_kindOf?_eq_none hkind] at hread
    cases hread
    rw [Json.normalForm_of_kindOf?_eq_none hkind, toJson]
  | some kind =>
    have htype := kindOf?_eq_some_iff.mp hkind
    have hcanonical := canonicalHere_of_ofJson h hread
    obtain ⟨members, draft, rfl, hreads, hnode⟩ := reads_of_ofJson h hread hkind
    have hnodeKind := kind?_of_ofDraft hnode
    have hextra := ((canonicalHere_iff hnodeKind).mp hcanonical).2
    obtain ⟨normal, hnormal, hsorted, hget⟩ :=
      Json.exists_normalForm_eq (Json.ordered_obj.mp h).1 hkind
    rw [hnormal, toJson_eq hnodeKind]
    congr 1
    -- Both have their members in order, so they are compared name by name.
    refine Members.eq_of_get?_eq Members.sorted_ofList hsorted fun name => ?_
    have hrest : Members.get? node.extra name
        = if kind.reads name then none else Members.get? members name := by
      rw [extra_of_ofDraft hnode, hreads.extra, List.append_nil, List.reverse_reverse,
        Members.get?_filter fun name => !kind.reads name]
      cases kind.reads name <;> rfl
    rw [Members.get?_ofList
      (nodup_fields_append (reads_of_mem_fields hnodeKind) (nodup_fields node) hextra),
      Members.get?_append, get?_fields_of_ofDraft hnode, hget, hrest]
    by_cases hname : name = "type"
    · subst hname
      rw [show Members.get? members "type" = some (.str kind.typeName) from htype]
      simp [Json.normalMember]
    by_cases hposition : name = "position"
    · subst hposition
      simp [get?_normalPosition h hreads.position, position?_of_ofDraft hnode, Kind.reads]
    by_cases hchildren : kind.hasChildren ∧ name = "children"
    · obtain ⟨has, rfl⟩ := hchildren
      have hfield := hreads.children
      rw [has] at hfield
      have hlist : node.childList = draft.children := by rw [childList_of_ofDraft hnode, if_pos has]
      simp [has, hlist, get?_normalChildren hfield fun item hitem child hchild =>
        ih item hitem (ordered_of_mem_childItems h hitem) hchild]
    by_cases htag : kind.hasTag ∧ name = "tagName"
    · obtain ⟨has, rfl⟩ := htag
      have hfield := hreads.tagName
      rw [has] at hfield
      simp [has, Kind.reads, get?_normalString hfield (by decide) (by decide)]
    by_cases hproperties : kind.hasTag ∧ name = "properties"
    · obtain ⟨has, rfl⟩ := hproperties
      have hfield := hreads.properties
      rw [has] at hfield
      simp [has, get?_normalProperties hfield]
    by_cases hvalue : kind.hasValue ∧ name = "value"
    · obtain ⟨has, rfl⟩ := hvalue
      have hfield := hreads.value
      rw [has] at hfield
      simp [has, Kind.reads, get?_normalString hfield (by decide) (by decide)]
    · -- A member that is not interpreted is kept on both sides.
      have hunread : kind.reads name = false := by grind [Kind.reads]
      have hmember : Json.normalMember kind name = some := by
        funext value
        rw [Json.normalMember, if_neg (fun h => hchildren ⟨h.2, h.1⟩), if_neg hposition]
      simp [hname, hposition, hchildren, htag, hproperties, hvalue, hunread, hmember]

/-- **Reading and writing give the normal form, and nothing else is lost.**  The normal form is read
as the same tree, and reading and writing it once more changes nothing. -/
theorem toJson_normalForm {value : Json} (h : value.Ordered) {node : Node}
    (hread : ofJson value = .ok node) :
    node.toJson = value.normalForm ∧ ofJson value.normalForm = .ok node ∧
      value.normalForm.normalForm = value.normalForm := by
  have hwritten := toJson_of_ofJson h hread
  have hcanonical := canonical_of_ofJson h hread
  have hagain : ofJson value.normalForm = .ok node :=
    hwritten ▸ ofJson_toJson hcanonical (placed_of_ofJson h hread)
  have hordered : value.normalForm.Ordered := hwritten ▸ ordered_toJson hcanonical
  exact ⟨hwritten, hagain, (toJson_of_ofJson hordered hagain).symm.trans hwritten⟩

/-- An element without properties and with a position in arrays; its value and the members of its
child of another type are kept. -/
theorem toJson_normalForm_arrays :
    let child : Json := .obj [("position", .null), ("type", .str "figure")]
    let position : Json := .arr [.arr [.nat 1, .nat 1], .arr [.nat 1, .nat 5, .null]]
    let value : Json := .obj [("children", .arr [child]), ("position", position),
      ("tagName", .str "p"), ("type", .str "element"), ("value", .null)]
    let node : Node := .element "p" [] [.other child] (some ⟨⟨1, 1, none⟩, ⟨1, 5, none⟩⟩)
      [("value", .null)]
    ofJson value = .ok node ∧ node.toJson = .obj [("children", .arr [child]),
      ("position", .obj [("end", .obj [("column", .nat 5), ("line", .nat 1)]),
        ("start", .obj [("column", .nat 1), ("line", .nat 1)])]),
      ("properties", .obj []), ("tagName", .str "p"), ("type", .str "element"),
      ("value", .null)] := by
  intro child position value node
  have hordered : value.Ordered := by
    have h₁ : "children" < "position" := by decide
    have h₂ : "position" < "tagName" := by decide
    have h₃ : "tagName" < "type" := by decide
    have h₄ : "type" < "value" := by decide
    have h₅ : "position" < "type" := by decide
    simp [value, child, position, Json.nat, Json.ordered_obj, Json.ordered_arr,
      Members.sorted_cons, Members.sorted_nil, h₁, h₂, h₃, h₄, h₅, -String.lt_iff_ltb]
  have hread : ofJson value = .ok node := rfl
  exact ⟨hread, (toJson_normalForm hordered hread).1.trans rfl⟩

end Hast.Node

end Hypermark
