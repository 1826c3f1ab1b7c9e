import Hypermark.Proofs.Hast.Canonical
import Hypermark.Proofs.Json.ReadBack

/-!
# Trees and their values

A tree that is canonical and placed is read back from its value (`ofJson_toJson`), and its value is
what is written with the members of every object in order (`sorted_written`).  Hence it is read back
from its text (`read_print`).

A node's members are its fields and those it does not interpret.  Their order does not matter for
reading, so the fields are read as they would be alone (`readMembers_ofList_fields`).
-/

namespace Hypermark.Hast.Node

/-- Items that are read back one by one are read back as a list. -/
theorem ofJsonAll_map_toJson {nodes : List Node}
    (h : ∀ node ∈ nodes, ofJson node.toJson = .ok node) :
    ofJsonAll (nodes.map toJson) = .ok nodes := by
  rw [ofJsonAll_eq_ok_iff, List.forall₂_map_left_iff, List.forall₂_same]
  exact h

/-! ## The members of a node -/

/-- The members of a node that are interpreted, for given values of its children and its position.
-/
def fields (children : List Json) (position : Option Json) : Node → List (String × Json)
  | root .. => rootMembers children position []
  | element tagName properties .. => elementMembers tagName properties children position []
  | text value .. => leafMembers "text" value position []
  | comment value .. => leafMembers "comment" value position []
  | raw value .. => leafMembers "raw" value position []
  | other _ => []

section Fields

variable {node : Node} {kind : Kind} {children : List Json} {position : Option Json}

/-- The value of a node is an object of its fields and of the members it does not interpret. -/
theorem toJson_eq (h : node.kind? = some kind) :
    node.toJson = .obj (Members.ofList (node.fields (node.childList.map toJson)
      (node.position?.map Position.toJson) ++ node.extra)) := by
  cases node with
  | other => cases h
  | _ => simp [toJson, fields, extra, position?, rootMembers, elementMembers, leafMembers]

/-- So is what is written for it, with its fields before the others. -/
theorem written_eq (h : node.kind? = some kind) :
    node.written = .obj (node.fields (node.childList.map written)
      (node.position?.map Position.written) ++ node.extra) := by
  cases node with
  | other => cases h
  | _ => simp [written, fields, extra, position?, rootMembers, elementMembers, leafMembers]

/-- The fields are members that nodes of the kind read. -/
theorem reads_of_mem_fields (h : node.kind? = some kind) :
    ∀ entry ∈ node.fields children position, kind.reads entry.1 := by
  cases node with
  | other => cases h
  | _ =>
    cases h
    cases position <;>
      simp [fields, rootMembers, elementMembers, leafMembers, Kind.reads, Kind.hasChildren,
        Kind.hasTag, Kind.hasValue]

/-- The fields have different names. -/
theorem nodup_fields (node : Node) : (Members.names (node.fields children position)).Nodup := by
  cases node <;> cases position <;>
    simp [fields, rootMembers, elementMembers, leafMembers, Members.names]

/-- Among the fields is the type of the kind. -/
theorem get?_type_fields (h : node.kind? = some kind) :
    Members.get? (node.fields children position) "type" = some (.str kind.typeName) := by
  cases node with
  | other => cases h
  | _ =>
    cases h
    rfl

end Fields

/-! ## Reading a value back -/

section ReadBack

variable {kind : Kind} {fields : List (String × Json)} {extra : Members Json}

/-- A member that is read is not among those that are not interpreted. -/
theorem get?_extra_eq_none (h : ExtraFits kind extra) {name : String} (hname : kind.reads name) :
    Members.get? extra name = none := by
  refine Members.get?_eq_none_iff.mpr fun entry hentry heq => ?_
  have := h.unread entry hentry
  rw [heq, hname] at this
  contradiction

variable (hreads : ∀ entry ∈ fields, kind.reads entry.1)
  (hnodup : (Members.names fields).Nodup) (hextra : ExtraFits kind extra)

include hreads hnodup hextra

/-- The fields and the other members have different names. -/
theorem nodup_fields_append : ((fields ++ extra).map Prod.fst).Nodup := by
  rw [List.map_append, List.nodup_append]
  refine ⟨hnodup, hextra.sorted.nodup, fun name hname other hother heq => ?_⟩
  obtain ⟨field, hfield, rfl⟩ := List.mem_map.mp hname
  obtain ⟨entry, hentry, rfl⟩ := List.mem_map.mp hother
  have := hextra.unread entry hentry
  rw [← heq, hreads field hfield] at this
  contradiction

/-- What is found under the name of a field is the field. -/
theorem get?_ofList_fields {name : String} (hname : kind.reads name) :
    Members.get? (Members.ofList (fields ++ extra)) name = Members.get? fields name := by
  rw [Members.get?_ofList (nodup_fields_append hreads hnodup hextra), Members.get?_append,
    get?_extra_eq_none hextra hname, Option.or_none]

/-- What is not read among the members is what was not interpreted. -/
theorem filter_ofList_fields :
    (Members.ofList (fields ++ extra)).filter (fun entry => !kind.reads entry.1) = extra := by
  refine Members.eq_of_get?_eq (Members.sorted_ofList.filter _) hextra.sorted fun name => ?_
  rw [Members.get?_filter (fun name => !kind.reads name)]
  cases hname : kind.reads name with
  | true => rw [get?_extra_eq_none hextra hname]; rfl
  | false =>
    have hnone : Members.get? fields name = none :=
      Members.get?_eq_none_iff.mpr fun entry hentry heq => by
        have := hreads entry hentry
        rw [heq, hname] at this
        contradiction
    rw [Members.get?_ofList (nodup_fields_append hreads hnodup hextra), Members.get?_append, hnone,
      Option.none_or]
    rfl

/-- The fields are read as they would be alone, and the rest is kept. -/
theorem readMembers_ofList_fields {draft : Draft} (h : readMembers kind {} fields = .ok draft) :
    readMembers kind {} (Members.ofList (fields ++ extra))
      = .ok { draft with extra := extra.reverse } := by
  -- No name of a field is among those of the rest, so the rest does not hide a field or add one.
  have hfield {α : Type} {hasField : Bool} {name : String} {read : Json → Except Mismatch α}
      {missing found : α} (hname : hasField → kind.reads name)
      (hfound : FieldIs hasField fields name read missing found) :
      FieldIs hasField (Members.ofList (fields ++ extra)) name read missing found := by
    cases hasField with
    | false => exact hfound
    | true => exact (fieldIs_congr (get?_ofList_fields hreads hnodup hextra (hname rfl))).mpr hfound
  rw [readMembers_eq_ok_iff hnodup] at h
  rw [readMembers_eq_ok_iff Members.sorted_ofList.nodup]
  refine ⟨hfield ?_ h.position, hfield ?_ h.children, hfield ?_ h.tagName, hfield ?_ h.properties,
    hfield ?_ h.value, ?_⟩
  · simp [Kind.reads]
  · intro hkind
    simp [Kind.reads, hkind]
  · intro hkind
    simp [Kind.reads, hkind]
  · intro hkind
    simp [Kind.reads, hkind]
  · intro hkind
    simp [Kind.reads, hkind]
  · rw [filter_ofList_fields hreads hnodup hextra, List.append_nil]

/-- A node is read from its fields, whatever members there are besides. -/
theorem ofJson_ofList_fields {draft : Draft} {node : Node}
    (htype : Members.get? fields "type" = some (.str kind.typeName))
    (hread : readMembers kind {} fields = .ok draft)
    (hnode : ofDraft kind { draft with extra := extra.reverse } = .ok node) :
    ofJson (.obj (Members.ofList (fields ++ extra))) = .ok node := by
  have hkind : Kind.ofMembers? (Members.ofList (fields ++ extra)) = some kind := by
    have : kind.reads "type" := by simp [Kind.reads]
    rw [Kind.ofMembers?, get?_ofList_fields hreads hnodup hextra this, htype, Option.bind_some,
      Json.asString?, Option.bind_some, Kind.ofName?_typeName]
  rw [ofJson, hkind]
  dsimp only
  rw [readMembers_ofList_fields hreads hnodup hextra hread]
  exact hnode

end ReadBack

/-- The properties are read back. -/
theorem readProperties_propertiesJson {properties : Properties} (h : PropertiesFit properties) :
    readProperties (propertiesJson properties) = .ok properties := by
  rw [propertiesJson, readProperties, List.map_map]
  congr 1
  conv_rhs => rw [← List.map_id properties]
  refine List.map_congr_left fun entry hentry => ?_
  simp [(h.canonical entry hentry).variant]

/-- A position is read behind the other fields. -/
theorem readMembers_position {kind : Kind} {start : Draft} {position : Option Position}
    (hstart : start.position = none) (h : ∀ p ∈ position, p.Fits) :
    readMembers kind start ((position.map Position.toJson).map fun p => ("position", p)).toList
      = .ok { start with position } := by
  cases position with
  | none =>
    obtain ⟨_, _, _, _, _, _⟩ := start
    cases hstart
    rfl
  | some position =>
    simp [readMembers_cons, readMembers, readMember,
      Position.ofOptionalJson_toJson (h position rfl), bind, Except.bind, pure, Except.pure]

/-- The fields of a node are read from their values. -/
theorem readMembers_fields {node : Node} {kind : Kind} {children : List Json}
    (hkind : node.kind? = some kind) (hhere : node.CanonicalHere) (hplaced : node.PlacedHere)
    (hchildren : ofJsonAll children = .ok node.childList) :
    ∃ draft, readMembers kind {} (node.fields children (node.position?.map Position.toJson))
        = .ok draft ∧
      ofDraft kind { draft with extra := node.extra.reverse } = .ok node := by
  have hposition {start : Draft} (hstart : start.position = none) :=
    @readMembers_position kind start node.position? hstart hplaced
  cases node with
  | other => cases hkind
  | root nodes position extra =>
    cases hkind
    refine ⟨⟨none, [], nodes, position, none, []⟩, ?_, ?_⟩
    · simp only [fields, rootMembers, List.append_nil, List.cons_append, List.nil_append,
        readMembers_cons, readChildren, hchildren]
      exact hposition rfl
    · simp [ofDraft, Node.extra]
  | element tagName properties nodes position extra =>
    cases hkind
    refine ⟨⟨some tagName, properties, nodes, position, none, []⟩, ?_, ?_⟩
    · simp only [fields, elementMembers, List.append_nil, List.cons_append, List.nil_append,
        readMembers_cons, readMember, readChildren, readString, hchildren,
        readProperties_propertiesJson hhere.1]
      exact hposition rfl
    · simp [ofDraft, Node.extra]
  | text value position extra | comment value position extra | raw value position extra =>
    cases hkind
    refine ⟨⟨none, [], [], position, some value, []⟩, ?_, ?_⟩
    · simp only [fields, leafMembers, List.append_nil, List.cons_append, List.nil_append,
        readMembers_cons, readMember, readString]
      exact hposition rfl
    · simp [ofDraft, Node.extra]

/-- **A tree that could have been read is read back from its value.** -/
theorem ofJson_toJson {node : Node} (h : node.Canonical) (hplaced : node.Placed) :
    ofJson node.toJson = .ok node := by
  induction node using induction_children with
  | step node ih =>
    cases hkind : node.kind? with
    | none =>
      obtain ⟨value, rfl⟩ := kind?_eq_none_iff.mp hkind
      exact ofJson_of_kindOf?_eq_none h.here.2
    | some kind =>
      have hchildren : ofJsonAll (node.childList.map toJson) = .ok node.childList :=
        ofJsonAll_map_toJson fun child hchild =>
          ih child hchild (h.child child hchild) (hplaced.child child hchild)
      obtain ⟨draft, hread, hnode⟩ := readMembers_fields hkind h.here hplaced.here hchildren
      rw [toJson_eq hkind]
      exact ofJson_ofList_fields (reads_of_mem_fields hkind) (nodup_fields node)
        ((canonicalHere_iff hkind).mp h.here).2 (get?_type_fields hkind) hread hnode

/-! ## The order of members -/

/-- The properties of an element have their values in order. -/
theorem ordered_propertiesJson {properties : Properties} (h : PropertiesFit properties) :
    (propertiesJson properties).Ordered := by
  refine Json.ordered_obj.mpr ⟨h.sorted.map, fun entry hentry => ?_⟩
  obtain ⟨property, hproperty, rfl⟩ := List.mem_map.mp hentry
  exact (h.canonical property hproperty).ordered

/-- What holds of strings and of the properties, the children and the position, holds of all fields.
-/
theorem forall_fields {p : Json → Prop} {node : Node} {children : List Json}
    {position : Option Json} (hstr : ∀ value, p (.str value))
    (hproperties : p (propertiesJson node.properties)) (hchildren : p (.arr children))
    (hposition : ∀ value ∈ position, p value) :
    ∀ entry ∈ node.fields children position, p entry.2 := by
  have hmembers : ∀ entry ∈ (position.map fun p => ("position", p)).toList, p entry.2 := by
    cases position with
    | none => simp
    | some value => simpa using hposition value rfl
  cases node with
  | other => simp [fields]
  | root => simp_all [fields, rootMembers]
  | element => simp_all [fields, elementMembers, properties]
  | text | comment | raw => simp_all [fields, leafMembers]

/-- The value of a canonical tree is ordered. -/
theorem ordered_toJson {node : Node} (h : node.Canonical) : node.toJson.Ordered := by
  induction node using induction_children with
  | step node ih =>
    cases hkind : node.kind? with
    | none =>
      obtain ⟨value, rfl⟩ := kind?_eq_none_iff.mp hkind
      exact h.here.1
    | some kind =>
      obtain ⟨hproperties, hextra⟩ := (canonicalHere_iff hkind).mp h.here
      rw [toJson_eq hkind]
      refine Json.ordered_obj.mpr ⟨Members.sorted_ofList, fun entry hentry => ?_⟩
      rcases List.mem_append.mp (Members.mem_ofList hentry) with hentry | hentry
      · refine forall_fields (fun _ => Json.ordered_str) (ordered_propertiesJson hproperties)
          (Json.ordered_arr.mpr ?_) ?_ entry hentry
        · simpa using fun child hchild => ih child hchild (h.child child hchild)
        · simpa using fun position _ => position.ordered_toJson
      · exact hextra.ordered entry hentry

/-- Sorting the fields sorts the children and the position. -/
theorem sorted_fields {node : Node} (h : node.CanonicalHere) (children : List Json)
    (position : Option Json) :
    (node.fields children position).map (fun entry => (entry.1, entry.2.sorted))
      = node.fields (children.map Json.sorted) (position.map Json.sorted) := by
  cases node with
  | other => rfl
  | element =>
    have := (ordered_propertiesJson h.1).sorted_eq
    cases position <;> simp [fields, elementMembers, Json.sorted, this]
  | root => cases position <;> simp [fields, rootMembers, Json.sorted]
  | text | comment | raw => cases position <;> simp [fields, leafMembers, Json.sorted]

/-- **The value of a canonical tree is what is written, with the members of every object in order.**
-/
theorem sorted_written {node : Node} (h : node.Canonical) : node.written.sorted = node.toJson := by
  induction node using induction_children with
  | step node ih =>
    cases hkind : node.kind? with
    | none =>
      obtain ⟨value, rfl⟩ := kind?_eq_none_iff.mp hkind
      exact h.here.1.sorted_eq
    | some kind =>
      have hextra := ((canonicalHere_iff hkind).mp h.here).2
      have hsorted : node.extra.map (fun entry => (entry.1, entry.2.sorted)) = node.extra := by
        conv_rhs => rw [← List.map_id node.extra]
        refine List.map_congr_left fun entry hentry => ?_
        rw [(hextra.ordered entry hentry).sorted_eq]
        rfl
      have hchildren :
          (node.childList.map written).map Json.sorted = node.childList.map toJson := by
        rw [List.map_map]
        exact List.map_congr_left fun child hchild => ih child hchild (h.child child hchild)
      have hposition : (node.position?.map Position.written).map Json.sorted
          = node.position?.map Position.toJson := by
        rw [Option.map_map]
        exact congrArg (node.position?.map ·) (funext Position.sorted_written)
      rw [written_eq hkind, toJson_eq hkind, Json.sorted, Json.sortedMembers_eq_map,
        List.map_append, sorted_fields h.here, hsorted, hchildren, hposition]

/-- The positions of a tree fit if all its numbers do. -/
theorem placed_of_words {node : Node} (h : node.written.Words) : node.Placed := by
  induction node using induction_children with
  | step node ih =>
    cases hkind : node.kind? with
    | none =>
      obtain ⟨value, rfl⟩ := kind?_eq_none_iff.mp hkind
      exact ⟨by simp [PlacedHere, position?], by simp⟩
    | some kind =>
      rw [written_eq hkind, Json.words_obj] at h
      refine ⟨fun position hposition => ?_, fun child hchild => ih child hchild ?_⟩
      · refine Position.fits_of_words (h ("position", position.written) (List.mem_append_left _ ?_))
        cases node with
        | other => cases hposition
        | _ => cases hposition; simp [fields, rootMembers, elementMembers, leafMembers, position?]
      · have harray := h ("children", .arr (node.childList.map written)) (List.mem_append_left _ ?_)
        · exact Json.words_arr.mp harray _ (List.mem_map_of_mem hchild)
        · cases node with
          | root | element => simp [fields, rootMembers, elementMembers]
          | text | comment | raw | other => cases hchild

/-! ## Repeated names -/

/-- What is written for a position has different names in every object. -/
theorem distinct_position (position : Position) : position.written.Distinct := by
  have hpoint (point : Point) : (Json.obj point.members).Distinct := by
    obtain ⟨line, column, offset⟩ := point
    refine Json.distinct_obj.mpr ⟨?_, fun entry hentry => ?_⟩
    · cases offset <;> simp [Point.members, Members.names]
    · cases offset <;> simp only [Point.members, Option.map_none, Option.map_some,
        Option.toList_none, Option.toList_some, List.append_nil, List.cons_append,
        List.nil_append, List.mem_cons, List.not_mem_nil, or_false] at hentry
      · rcases hentry with rfl | rfl <;> exact Json.ordered_num.distinct
      · rcases hentry with rfl | rfl | rfl <;> exact Json.ordered_num.distinct
  exact Json.distinct_obj.mpr ⟨by simp [Members.names], by simp [hpoint]⟩

/-- No object that is written for a canonical tree repeats a name. -/
theorem distinct_written {node : Node} (h : node.Canonical) : node.written.Distinct := by
  induction node using induction_children with
  | step node ih =>
    cases hkind : node.kind? with
    | none =>
      obtain ⟨value, rfl⟩ := kind?_eq_none_iff.mp hkind
      exact h.here.1.distinct
    | some kind =>
      obtain ⟨hproperties, hextra⟩ := (canonicalHere_iff hkind).mp h.here
      rw [written_eq hkind]
      refine Json.distinct_obj.mpr ⟨?_, fun entry hentry => ?_⟩
      · exact nodup_fields_append (reads_of_mem_fields hkind) (nodup_fields node) hextra
      rcases List.mem_append.mp hentry with hentry | hentry
      · refine forall_fields (fun _ => Json.ordered_str.distinct)
          (ordered_propertiesJson hproperties).distinct (Json.distinct_arr.mpr ?_) ?_ entry hentry
        · simpa using fun child hchild => ih child hchild (h.child child hchild)
        · simpa using fun position _ => distinct_position position
      · exact (hextra.ordered entry hentry).distinct

/-! ## The text of a tree -/

/-- A tree is read from a text that holds nothing but a value it is read from. -/
theorem read_of_readValue {source : String} {value : Json} {node : Node}
    (hvalue : Json.readValue source.toList = .ok (value, [])) (hnode : ofJson value = .ok node) :
    read source = .ok node := by
  rw [read, hvalue]
  refine bind_eq_ok_iff.mpr ⟨_, rfl, bind_eq_ok_iff.mpr ⟨node, ?_, rfl⟩⟩
  exact mapError_eq_ok_iff.mpr hnode

/-- **A tree is read back from its text**, unless it is nested too deep or has numbers that are not
integers of 64 bits. -/
theorem read_print {node : Node} (h : node.Canonical) (hwords : node.written.Words)
    (hnesting : node.written.nesting ≤ Json.maxNesting) : read node.print = .ok node := by
  have hvalue : Json.readValue node.print.toList = .ok (node.toJson, []) := by
    rw [print, Json.readValue_print hwords hnesting, sorted_written h]
  exact read_of_readValue hvalue (ofJson_toJson h (placed_of_words hwords))

end Hypermark.Hast.Node
