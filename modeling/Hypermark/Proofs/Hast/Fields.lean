import Hypermark.Hast.Decoder
import Hypermark.Proofs.Hast.Tree

/-!
# The fields of a node

Reading the members of a node one after the other finds each field under its name, whatever the
order (`readMembers_eq_ok_iff`): names do not repeat, so no member is read over another.  All
members that are not fields of the node's kind are kept as they stand.
-/

namespace Hypermark.Hast

namespace Kind

/-- Nodes of this kind read the member themselves. -/
def reads (kind : Kind) (name : String) : Bool :=
  name = "type" || name = "position" || (name = "children" && kind.hasChildren)
    || (name = "tagName" && kind.hasTag) || (name = "properties" && kind.hasTag)
    || (name = "value" && kind.hasValue)

/-- The type of nodes of this kind. -/
def typeName : Kind → String
  | root => "root"
  | element => "element"
  | text => "text"
  | comment => "comment"
  | raw => "raw"

/-- The type of a kind names that kind. -/
@[simp] theorem ofName?_typeName (kind : Kind) : ofName? kind.typeName = some kind := by
  cases kind <;> rfl

end Kind

namespace Node

/-- The children that the items of an array are read as. -/
def readChildren : Json → Except Mismatch (List Node)
  | .arr items => ofJsonAll items
  | value => .error (.ofValue value .sequence)

/-- The field that is read from the member `name`: it is what the member gives, or `missing` where
there is no such member or the kind of node has no such field. -/
def FieldIs {α : Type} (hasField : Bool) (members : Members Json) (name : String)
    (read : Json → Except Mismatch α) (missing field : α) : Prop :=
  match if hasField then Members.get? members name else none with
  | some value => read value = .ok field
  | none => field = missing

/-- The members of a node of a kind, read on from a draft, give another. -/
structure Reads (kind : Kind) (start : Draft) (members : Members Json) (draft : Draft) : Prop where
  position : FieldIs true members "position" Position.ofOptionalJson start.position draft.position
  children : FieldIs kind.hasChildren members "children" readChildren start.children draft.children
  tagName : FieldIs kind.hasTag members "tagName" (fun value => (readString value).map some)
    start.tagName draft.tagName
  properties : FieldIs kind.hasTag members "properties" readProperties start.properties
    draft.properties
  value : FieldIs kind.hasValue members "value" (fun value => (readString value).map some)
    start.value draft.value
  extra : draft.extra = (members.filter fun entry => !kind.reads entry.1).reverse ++ start.extra

/-- From a draft another is read if each of its fields is. -/
theorem reads_iff {kind : Kind} {start draft : Draft} {members : Members Json} :
    Reads kind start members draft ↔
      FieldIs true members "position" Position.ofOptionalJson start.position draft.position ∧
      FieldIs kind.hasChildren members "children" readChildren start.children draft.children ∧
      FieldIs kind.hasTag members "tagName" (fun value => (readString value).map some)
        start.tagName draft.tagName ∧
      FieldIs kind.hasTag members "properties" readProperties start.properties draft.properties ∧
      FieldIs kind.hasValue members "value" (fun value => (readString value).map some)
        start.value draft.value ∧
      draft.extra = (members.filter fun entry => !kind.reads entry.1).reverse ++ start.extra :=
  ⟨fun ⟨h₁, h₂, h₃, h₄, h₅, h₆⟩ => ⟨h₁, h₂, h₃, h₄, h₅, h₆⟩,
    fun ⟨h₁, h₂, h₃, h₄, h₅, h₆⟩ => ⟨h₁, h₂, h₃, h₄, h₅, h₆⟩⟩

section FieldIs

variable {α : Type} {hasField : Bool} {members : Members Json} {name other : String} {value : Json}
  {read : Json → Except Mismatch α} {missing field : α}

/-- Without members a field is missing. -/
theorem fieldIs_nil : FieldIs hasField [] name read missing field ↔ field = missing := by
  cases hasField <;> exact Iff.rfl

/-- The field depends on what is found under its name only. -/
theorem fieldIs_congr {others : Members Json}
    (h : Members.get? members name = Members.get? others name) :
    FieldIs hasField members name read missing field
      ↔ FieldIs hasField others name read missing field := by
  unfold FieldIs
  rw [h]

/-- A member of another name is not looked at. -/
theorem fieldIs_cons_of_ne (h : other ≠ name) :
    FieldIs hasField ((other, value) :: members) name read missing field
      ↔ FieldIs hasField members name read missing field := by
  unfold FieldIs
  rw [Members.get?_cons, if_neg (Ne.symm h)]

/-- The first member of the name is the field, if no other member has the name. -/
theorem fieldIs_cons_self (h : name ∉ Members.names members) :
    FieldIs true ((name, value) :: members) name read missing field
      ↔ ∃ found, read value = .ok found ∧ FieldIs true members name read found field := by
  have hnone : Members.get? members name = none :=
    Members.get?_eq_none_iff.mpr fun entry hentry heq =>
      h (heq ▸ List.mem_map_of_mem hentry)
  simp [FieldIs, Members.get?_cons, hnone]

end FieldIs

/-- The members read from an empty list are those of the draft. -/
theorem reads_nil {kind : Kind} {start draft : Draft} :
    Reads kind start [] draft ↔ draft = start := by
  obtain ⟨_, _, _, _, _, _⟩ := start
  obtain ⟨_, _, _, _, _, _⟩ := draft
  simp only [reads_iff, fieldIs_nil, List.filter_nil, List.reverse_nil, List.nil_append,
    Draft.mk.injEq]
  tauto

section Cons

variable {kind : Kind} {start draft : Draft} {value : Json} {rest : Members Json}

/-- The type is passed over. -/
theorem reads_cons_type :
    Reads kind start (("type", value) :: rest) draft ↔ Reads kind start rest draft := by
  simp [reads_iff, fieldIs_cons_of_ne, Kind.reads]

/-- The position is read from the member of that name. -/
theorem reads_cons_position (hname : "position" ∉ Members.names rest) :
    Reads kind start (("position", value) :: rest) draft ↔
      ∃ position, Position.ofOptionalJson value = .ok position ∧
        Reads kind { start with position } rest draft := by
  have hreads : kind.reads "position" := by simp [Kind.reads]
  simp only [reads_iff, fieldIs_cons_self hname, List.filter_cons, hreads]
  simp only [fieldIs_cons_of_ne, ne_eq, String.reduceEq, not_false_eq_true]
  exact ⟨fun ⟨⟨found, hfound, h₁⟩, h⟩ => ⟨found, hfound, h₁, h⟩,
    fun ⟨found, hfound, h₁, h⟩ => ⟨⟨found, hfound, h₁⟩, h⟩⟩

/-- So are the children, for the kinds that have any. -/
theorem reads_cons_children (hkind : kind.hasChildren) (hname : "children" ∉ Members.names rest) :
    Reads kind start (("children", value) :: rest) draft ↔
      ∃ children, readChildren value = .ok children ∧
        Reads kind { start with children } rest draft := by
  have hreads : kind.reads "children" := by simp [Kind.reads, hkind]
  simp only [reads_iff, hkind, fieldIs_cons_self hname, List.filter_cons, hreads]
  simp only [fieldIs_cons_of_ne, ne_eq, String.reduceEq, not_false_eq_true]
  exact ⟨fun ⟨h₁, ⟨found, hfound, h₂⟩, h⟩ => ⟨found, hfound, h₁, h₂, h⟩,
    fun ⟨found, hfound, h₁, h₂, h⟩ => ⟨h₁, ⟨found, hfound, h₂⟩, h⟩⟩

/-- So is the name of the tag, for the kind that has one. -/
theorem reads_cons_tagName (hkind : kind.hasTag) (hname : "tagName" ∉ Members.names rest) :
    Reads kind start (("tagName", value) :: rest) draft ↔
      ∃ tagName, readString value = .ok tagName ∧
        Reads kind { start with tagName := some tagName } rest draft := by
  have hreads : kind.reads "tagName" := by simp [Kind.reads, hkind]
  simp only [reads_iff, hkind, fieldIs_cons_self hname, List.filter_cons, hreads, map_eq_ok_iff]
  simp only [fieldIs_cons_of_ne, ne_eq, String.reduceEq, not_false_eq_true]
  exact ⟨fun ⟨h₁, h₂, ⟨_, ⟨found, hfound, rfl⟩, h₃⟩, h⟩ => ⟨found, hfound, h₁, h₂, h₃, h⟩,
    fun ⟨found, hfound, h₁, h₂, h₃, h⟩ => ⟨h₁, h₂, ⟨_, ⟨found, hfound, rfl⟩, h₃⟩, h⟩⟩

/-- So are the properties. -/
theorem reads_cons_properties (hkind : kind.hasTag) (hname : "properties" ∉ Members.names rest) :
    Reads kind start (("properties", value) :: rest) draft ↔
      ∃ properties, readProperties value = .ok properties ∧
        Reads kind { start with properties } rest draft := by
  have hreads : kind.reads "properties" := by simp [Kind.reads, hkind]
  simp only [reads_iff, hkind, fieldIs_cons_self hname, List.filter_cons, hreads]
  simp only [fieldIs_cons_of_ne, ne_eq, String.reduceEq, not_false_eq_true]
  exact ⟨fun ⟨h₁, h₂, h₃, ⟨found, hfound, h₄⟩, h⟩ => ⟨found, hfound, h₁, h₂, h₃, h₄, h⟩,
    fun ⟨found, hfound, h₁, h₂, h₃, h₄, h⟩ => ⟨h₁, h₂, h₃, ⟨found, hfound, h₄⟩, h⟩⟩

/-- So is the text of a leaf. -/
theorem reads_cons_value (hkind : kind.hasValue) (hname : "value" ∉ Members.names rest) :
    Reads kind start (("value", value) :: rest) draft ↔
      ∃ text, readString value = .ok text ∧
        Reads kind { start with value := some text } rest draft := by
  have hreads : kind.reads "value" := by simp [Kind.reads, hkind]
  simp only [reads_iff, hkind, fieldIs_cons_self hname, List.filter_cons, hreads, map_eq_ok_iff]
  simp only [fieldIs_cons_of_ne, ne_eq, String.reduceEq, not_false_eq_true]
  exact ⟨fun ⟨h₁, h₂, h₃, h₄, ⟨_, ⟨found, hfound, rfl⟩, h₅⟩, h⟩ =>
      ⟨found, hfound, h₁, h₂, h₃, h₄, h₅, h⟩,
    fun ⟨found, hfound, h₁, h₂, h₃, h₄, h₅, h⟩ =>
      ⟨h₁, h₂, h₃, h₄, ⟨_, ⟨found, hfound, rfl⟩, h₅⟩, h⟩⟩

/-- A member that is no field of the kind is kept. -/
theorem reads_cons_extra {name : String} (hname : kind.reads name = false) :
    Reads kind start ((name, value) :: rest) draft ↔
      Reads kind { start with extra := (name, value) :: start.extra } rest draft := by
  have hfield {α : Type} {hasField : Bool} {field : String} {read : Json → Except Mismatch α}
      {missing found : α} (hreads : hasField → kind.reads field) :
      FieldIs hasField ((name, value) :: rest) field read missing found
        ↔ FieldIs hasField rest field read missing found := by
    cases hasField with
    | false => exact Iff.rfl
    | true =>
      refine fieldIs_cons_of_ne ?_
      rintro rfl
      rw [hreads rfl] at hname
      contradiction
  simp only [reads_iff, List.filter_cons, hname, Bool.not_false, if_true, List.reverse_cons,
    List.append_assoc, List.singleton_append]
  rw [hfield fun _ => by simp [Kind.reads], hfield fun h => by simp [Kind.reads, h],
    hfield fun h => by simp [Kind.reads, h], hfield fun h => by simp [Kind.reads, h],
    hfield fun h => by simp [Kind.reads, h]]

end Cons

/-- One member is read, then the others. -/
theorem readMembers_cons {kind : Kind} {start : Draft} {name : String} {value : Json}
    {rest : List (String × Json)} :
    readMembers kind start ((name, value) :: rest) =
      if name = "type" then readMembers kind start rest
      else if name = "children" ∧ kind.hasChildren then
        readChildren value >>= fun children => readMembers kind { start with children } rest
      else readMember kind start name value >>= fun draft => readMembers kind draft rest := by
  rw [readMembers.eq_def]
  dsimp only
  split
  · rfl
  split
  · cases value <;> rfl
  · rfl

/-- **Each field is read from the member of its name.** -/
theorem readMembers_eq_ok_iff {kind : Kind} {members : Members Json} (h : members.names.Nodup)
    {start draft : Draft} :
    readMembers kind start members = .ok draft ↔ Reads kind start members draft := by
  induction members generalizing start with
  | nil =>
    rw [readMembers, reads_nil]
    exact ⟨fun h => (Except.ok.inj h).symm, fun h => h ▸ rfl⟩
  | cons entry rest ih =>
    obtain ⟨name, value⟩ := entry
    obtain ⟨hname, hrest⟩ := List.nodup_cons.mp h
    have ih := @ih hrest
    rw [readMembers_cons]
    -- In the order in which the reader tries the names; each case has the earlier ones excluded.
    by_cases htype : name = "type"
    · subst htype
      rw [if_pos rfl, ih, reads_cons_type]
    rw [if_neg htype]
    by_cases hchildren : name = "children" ∧ kind.hasChildren
    · obtain ⟨rfl, hkind⟩ := hchildren
      rw [if_pos ⟨rfl, hkind⟩, reads_cons_children hkind hname, bind_eq_ok_iff]
      simp only [ih]
    rw [if_neg hchildren, readMember]
    by_cases hposition : name = "position"
    · subst hposition
      rw [if_pos rfl, reads_cons_position hname]
      simp only [bind_assoc, pure_bind, bind_eq_ok_iff, ih]
    rw [if_neg hposition]
    by_cases htag : name = "tagName" ∧ kind.hasTag
    · obtain ⟨rfl, hkind⟩ := htag
      rw [if_pos ⟨rfl, hkind⟩, reads_cons_tagName hkind hname]
      simp only [bind_assoc, pure_bind, bind_eq_ok_iff, ih]
    rw [if_neg htag]
    by_cases hproperties : name = "properties" ∧ kind.hasTag
    · obtain ⟨rfl, hkind⟩ := hproperties
      rw [if_pos ⟨rfl, hkind⟩, reads_cons_properties hkind hname]
      simp only [bind_assoc, pure_bind, bind_eq_ok_iff, ih]
    rw [if_neg hproperties]
    by_cases hvalue : name = "value" ∧ kind.hasValue
    · obtain ⟨rfl, hkind⟩ := hvalue
      rw [if_pos ⟨rfl, hkind⟩, reads_cons_value hkind hname]
      simp only [bind_assoc, pure_bind, bind_eq_ok_iff, ih]
    rw [if_neg hvalue, pure_bind, ih, reads_cons_extra]
    simp only [Kind.reads, Bool.or_eq_false_iff, Bool.and_eq_false_imp, decide_eq_false_iff_not,
      decide_eq_true_eq]
    refine ⟨⟨⟨⟨⟨htype, hposition⟩, ?_⟩, ?_⟩, ?_⟩, ?_⟩
    · exact fun hn => Bool.eq_false_iff.mpr fun hk => hchildren ⟨hn, hk⟩
    · exact fun hn => Bool.eq_false_iff.mpr fun hk => htag ⟨hn, hk⟩
    · exact fun hn => Bool.eq_false_iff.mpr fun hk => hproperties ⟨hn, hk⟩
    · exact fun hn => Bool.eq_false_iff.mpr fun hk => hvalue ⟨hn, hk⟩

end Node

end Hypermark.Hast
