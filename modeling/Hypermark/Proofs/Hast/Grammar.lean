import Mathlib.Algebra.Group.Int.Defs
import Hypermark.Proofs.Hast.Canonical

/-!
# Which values are trees

The values that can be read as trees, as a grammar (`Json.IsNode`): a value that names one of the
five kinds has to have the members of that kind, and its children have to be trees in turn; any
other value is a tree whatever is in it.

Reading succeeds on the values of the grammar and on no others, and gives the node that the type of
the value names (`ofJson_grammar`).  Positions and points are read from objects and from arrays
(`IsPosition`, `IsPoint`).
-/

namespace Hypermark

/-! ## The grammar -/

namespace Json

/-- An integer from zero up to `2 ^ 64 - 1`. -/
def IsSize (value : Json) : Prop := ∃ n : Int, 0 ≤ n ∧ n < 2 ^ 64 ∧ value = .num (.int n)

/-- An object with a line and a column, or an array of both; an offset may follow. -/
inductive IsPoint : Json → Prop
  | object {members : Members Json} {line column : Json}
    (hline : Members.get? members "line" = some line) (line_isSize : line.IsSize)
    (hcolumn : Members.get? members "column" = some column) (column_isSize : column.IsSize)
    (hoffset : ∀ offset, Members.get? members "offset" = some offset →
      offset = .null ∨ offset.IsSize) : IsPoint (.obj members)
  | pair {line column : Json} (hline : line.IsSize) (hcolumn : column.IsSize) :
    IsPoint (.arr [line, column])
  | triple {line column offset : Json} (hline : line.IsSize) (hcolumn : column.IsSize)
    (hoffset : offset = .null ∨ offset.IsSize) : IsPoint (.arr [line, column, offset])

/-- An object with a start and an end, or an array of both. -/
inductive IsPosition : Json → Prop
  | object {members : Members Json} {start stop : Json}
    (hstart : Members.get? members "start" = some start) (start_isPoint : start.IsPoint)
    (hstop : Members.get? members "end" = some stop) (stop_isPoint : stop.IsPoint) :
    IsPosition (.obj members)
  | pair {start stop : Json} (hstart : start.IsPoint) (hstop : stop.IsPoint) :
    IsPosition (.arr [start, stop])

/-- The types of the nodes that are read member by member. -/
def typeNames : List String := ["root", "element", "text", "comment", "raw"]

/-- The position of a value is left out, or is one. -/
def HasPosition (value : Json) : Prop :=
  ∀ position, value.get? "position" = some position → position = .null ∨ position.IsPosition

/-- The values that are trees. -/
inductive IsNode : Json → Prop
  /-- A value of another type, or of none; nothing in it is looked at. -/
  | kept {value : Json} (htype : ∀ name ∈ typeNames, value.get? "type" ≠ some (.str name)) :
    IsNode value
  | root {value : Json} (htype : value.get? "type" = some (.str "root"))
    (harray : ∀ children, value.get? "children" = some children → ∃ items, children = .arr items)
    (hitems : ∀ items, value.get? "children" = some (.arr items) → ∀ item ∈ items, IsNode item)
    (hposition : value.HasPosition) : IsNode value
  | element {value : Json} (htype : value.get? "type" = some (.str "element"))
    (harray : ∀ children, value.get? "children" = some children → ∃ items, children = .arr items)
    (hitems : ∀ items, value.get? "children" = some (.arr items) → ∀ item ∈ items, IsNode item)
    (hposition : value.HasPosition)
    (htagName : ∃ tagName, value.get? "tagName" = some (.str tagName))
    (hproperties : ∀ properties, value.get? "properties" = some properties →
      ∃ members, properties = .obj members) : IsNode value
  | leaf {value : Json} {name : String} (hname : name ∈ ["text", "comment", "raw"])
    (htype : value.get? "type" = some (.str name))
    (hvalue : ∃ text, value.get? "value" = some (.str text))
    (hposition : value.HasPosition) : IsNode value

/-! ## Numbers -/

/-- A size is read from an integer in its range. -/
theorem toSize_eq_ok_iff {value : Json} {n : Nat} :
    value.toSize = .ok n ↔ value = nat n ∧ (n : Int) ≤ maxSize := by
  constructor
  · intro h
    refine ⟨?_, le_maxSize_of_toSize h⟩
    unfold toSize at h
    split at h
    · split at h
      · next hvalue =>
        cases h
        rw [nat, Int.toNat_of_nonneg hvalue.1]
      · cases h
    · cases h
  · rintro ⟨rfl, h⟩
    exact toSize_nat h

/-- The sizes are the values that are read as one. -/
theorem isSize_iff {value : Json} : value.IsSize ↔ ∃ n, value.toSize = .ok n := by
  simp only [toSize_eq_ok_iff]
  constructor
  · rintro ⟨n, hpos, hlt, rfl⟩
    obtain ⟨n, rfl⟩ := Int.eq_ofNat_of_zero_le hpos
    refine ⟨n, rfl, ?_⟩
    rw [maxSize]
    omega
  · rintro ⟨n, rfl, h⟩
    rw [maxSize] at h
    exact ⟨n, Int.natCast_nonneg n, by omega, rfl⟩

/-- A size that may be missing is read from `null` or from a size. -/
theorem toOptionalSize_eq_ok_iff {value : Json} {size : Option Nat} :
    value.toOptionalSize = .ok size ↔
      value = .null ∧ size = none ∨ ∃ n, value.toSize = .ok n ∧ size = some n := by
  unfold toOptionalSize
  split
  · simp [toSize, eq_comm]
  · next hnull =>
    rw [map_eq_ok_iff]
    constructor
    · rintro ⟨n, hn, rfl⟩
      exact .inr ⟨n, hn, rfl⟩
    · rintro (⟨h, -⟩ | ⟨n, hn, rfl⟩)
      · exact absurd h hnull
      · exact ⟨n, hn, rfl⟩

/-- The values that are read as sizes, or as none. -/
theorem exists_toOptionalSize_iff {value : Json} :
    (∃ size, value.toOptionalSize = .ok size) ↔ value = .null ∨ value.IsSize := by
  simp only [toOptionalSize_eq_ok_iff, isSize_iff]
  constructor
  · rintro ⟨_, ⟨h, -⟩ | ⟨n, hn, -⟩⟩
    · exact .inl h
    · exact .inr ⟨n, hn⟩
  · rintro (h | ⟨n, hn⟩)
    · exact ⟨none, .inl ⟨h, rfl⟩⟩
    · exact ⟨some n, .inr ⟨n, hn, rfl⟩⟩

end Json

/-! ## Members one by one -/

namespace Hast.Node

variable {α : Type} {members : Members Json} {name : String} {read : Json → Except Mismatch α}

/-- A field can be read if its member can, where there is one. -/
theorem exists_fieldIs_iff {hasField : Bool} {missing : α} :
    (∃ field, FieldIs hasField members name read missing field) ↔
      (hasField → ∀ value, Members.get? members name = some value →
        ∃ field, read value = .ok field) := by
  cases hasField with
  | false => simp [FieldIs]
  | true =>
    simp only [FieldIs, if_true, forall_const]
    cases Members.get? members name with
    | none => simp
    | some value => simp

/-- A field without which there is no node is the one that its member gives. -/
theorem fieldIs_some_iff {field : α} :
    FieldIs true members name (fun value => (read value).map some) none (some field) ↔
      ∃ value, Members.get? members name = some value ∧ read value = .ok field := by
  unfold FieldIs
  rw [if_pos rfl]
  cases Members.get? members name with
  | none => simp
  | some value => simp [map_eq_ok_iff]

/-- A field that must not be missing can be read if there is a member for it that can. -/
theorem exists_required_iff {hasField : Bool} :
    (∃ field, FieldIs hasField members name (fun value => (read value).map some) none field ∧
        (hasField → field.isSome)) ↔
      (hasField → ∃ value field, Members.get? members name = some value ∧
        read value = .ok field) := by
  cases hasField with
  | false => simp [FieldIs]
  | true =>
    constructor
    · rintro ⟨field, hfield, hsome⟩ -
      obtain ⟨found, rfl⟩ := Option.isSome_iff_exists.mp (hsome rfl)
      obtain ⟨value, hget, hread⟩ := fieldIs_some_iff.mp hfield
      exact ⟨value, found, hget, hread⟩
    · intro h
      obtain ⟨value, field, hget, hread⟩ := h rfl
      exact ⟨some field, fieldIs_some_iff.mpr ⟨value, hget, hread⟩, fun _ => rfl⟩

end Hast.Node

open Hast.Node (FieldIs fieldIs_nil fieldIs_cons_self fieldIs_cons_of_ne fieldIs_some_iff
  exists_fieldIs_iff)

/-! ## Points -/

namespace Point

/-- Each field of a point is read from the member of its name. -/
theorem readMembers_eq_ok_iff {members : Members Json} (h : members.names.Nodup)
    {start draft : Draft} :
    readMembers start members = .ok draft ↔
      FieldIs true members "line" (fun value => value.toSize.map some) start.line draft.line ∧
      FieldIs true members "column" (fun value => value.toSize.map some) start.column draft.column ∧
      FieldIs true members "offset" Json.toOptionalSize start.offset draft.offset := by
  induction members generalizing start with
  | nil =>
    obtain ⟨_, _, _⟩ := start
    obtain ⟨_, _, _⟩ := draft
    simp [readMembers, fieldIs_nil, eq_comm]
  | cons entry rest ih =>
    obtain ⟨name, value⟩ := entry
    obtain ⟨hname, hrest⟩ := List.nodup_cons.mp h
    have ih := @ih hrest
    rw [readMembers]
    -- Names do not repeat, so the rest has no member of the name that is read here.
    by_cases hline : name = "line"
    · subst hline
      simp only [if_pos, bind_eq_ok_iff, ih, fieldIs_cons_self hname, map_eq_ok_iff,
        fieldIs_cons_of_ne (show "line" ≠ "column" by decide),
        fieldIs_cons_of_ne (show "line" ≠ "offset" by decide)]
      constructor
      · rintro ⟨line, hread, h₁, h₂, h₃⟩
        exact ⟨⟨_, ⟨line, hread, rfl⟩, h₁⟩, h₂, h₃⟩
      · rintro ⟨⟨_, ⟨line, hread, rfl⟩, h₁⟩, h₂, h₃⟩
        exact ⟨line, hread, h₁, h₂, h₃⟩
    rw [if_neg hline, fieldIs_cons_of_ne hline]
    by_cases hcolumn : name = "column"
    · subst hcolumn
      simp only [if_pos, bind_eq_ok_iff, ih, fieldIs_cons_self hname, map_eq_ok_iff,
        fieldIs_cons_of_ne (show "column" ≠ "offset" by decide)]
      constructor
      · rintro ⟨column, hread, h₁, h₂, h₃⟩
        exact ⟨h₁, ⟨_, ⟨column, hread, rfl⟩, h₂⟩, h₃⟩
      · rintro ⟨h₁, ⟨_, ⟨column, hread, rfl⟩, h₂⟩, h₃⟩
        exact ⟨column, hread, h₁, h₂, h₃⟩
    rw [if_neg hcolumn, fieldIs_cons_of_ne hcolumn]
    by_cases hoffset : name = "offset"
    · subst hoffset
      simp only [if_pos, bind_eq_ok_iff, ih, fieldIs_cons_self hname]
      constructor
      · rintro ⟨offset, hread, h₁, h₂, h₃⟩
        exact ⟨h₁, h₂, offset, hread, h₃⟩
      · rintro ⟨h₁, h₂, offset, hread, h₃⟩
        exact ⟨offset, hread, h₁, h₂, h₃⟩
    rw [if_neg hoffset, fieldIs_cons_of_ne hoffset, ih]

/-- A point from an object. -/
theorem ofJson_obj_eq_ok_iff {members : Members Json} (h : members.names.Nodup) {point : Point} :
    ofJson (.obj members) = .ok point ↔
      (∃ line, Members.get? members "line" = some line ∧ line.toSize = .ok point.line) ∧
      (∃ column, Members.get? members "column" = some column ∧
        column.toSize = .ok point.column) ∧
      FieldIs true members "offset" Json.toOptionalSize none point.offset := by
  rw [ofJson, bind_eq_ok_iff, ← fieldIs_some_iff, ← fieldIs_some_iff]
  simp only [readMembers_eq_ok_iff h]
  obtain ⟨line, column, offset⟩ := point
  constructor
  · rintro ⟨⟨readLine, readColumn, readOffset⟩, ⟨h₁, h₂, h₃⟩, hpoint⟩
    dsimp only at h₁ h₂ h₃ hpoint
    split at hpoint
    · cases hpoint
      exact ⟨h₁, h₂, h₃⟩
    · cases hpoint
    · cases hpoint
  · rintro ⟨h₁, h₂, h₃⟩
    exact ⟨⟨some line, some column, offset⟩, ⟨h₁, h₂, h₃⟩, rfl⟩

/-- How a point is read: from the members of an object, or from the items of an array. -/
inductive ReadFrom (point : Point) : Json → Prop
  | object {members : Members Json} {line column : Json}
    (hline : Members.get? members "line" = some line) (line_read : line.toSize = .ok point.line)
    (hcolumn : Members.get? members "column" = some column)
    (column_read : column.toSize = .ok point.column)
    (hoffset : FieldIs true members "offset" Json.toOptionalSize none point.offset) :
    ReadFrom point (.obj members)
  | pair {line column : Json} (line_read : line.toSize = .ok point.line)
    (column_read : column.toSize = .ok point.column) (hoffset : point.offset = none) :
    ReadFrom point (.arr [line, column])
  | triple {line column offset : Json} (line_read : line.toSize = .ok point.line)
    (column_read : column.toSize = .ok point.column)
    (offset_read : offset.toOptionalSize = .ok point.offset) :
    ReadFrom point (.arr [line, column, offset])

/-- A point is read from an object or from an array. -/
theorem ofJson_eq_ok_iff {value : Json} (h : value.Ordered) {point : Point} :
    ofJson value = .ok point ↔ ReadFrom point value := by
  constructor
  · intro hpoint
    unfold ofJson at hpoint
    split at hpoint
    · next members =>
      rw [← ofJson.eq_1, ofJson_obj_eq_ok_iff (Json.ordered_obj.mp h).1.nodup] at hpoint
      obtain ⟨⟨line, hline, line_read⟩, ⟨column, hcolumn, column_read⟩, hoffset⟩ := hpoint
      exact .object hline line_read hcolumn column_read hoffset
    · cases hpoint
    · obtain ⟨_, _, hpoint⟩ := bind_eq_ok_iff.mp hpoint
      cases hpoint
    · obtain ⟨line, line_read, hpoint⟩ := bind_eq_ok_iff.mp hpoint
      obtain ⟨column, column_read, hpoint⟩ := bind_eq_ok_iff.mp hpoint
      cases hpoint
      exact .pair line_read column_read rfl
    · obtain ⟨line, line_read, hpoint⟩ := bind_eq_ok_iff.mp hpoint
      obtain ⟨column, column_read, hpoint⟩ := bind_eq_ok_iff.mp hpoint
      obtain ⟨offset, offset_read, hpoint⟩ := bind_eq_ok_iff.mp hpoint
      split at hpoint
      · next hrest =>
        cases hpoint
        rw [List.isEmpty_iff] at hrest
        subst hrest
        exact .triple line_read column_read offset_read
      · cases hpoint
    · cases hpoint
  · intro hpoint
    obtain ⟨line, column, offset⟩ := point
    cases hpoint with
    | object hline line_read hcolumn column_read hoffset =>
      exact (ofJson_obj_eq_ok_iff (Json.ordered_obj.mp h).1.nodup).mpr
        ⟨⟨_, hline, line_read⟩, ⟨_, hcolumn, column_read⟩, hoffset⟩
    | pair line_read column_read hoffset =>
      dsimp only at line_read column_read hoffset
      simp [ofJson, line_read, column_read, hoffset, bind, Except.bind]
    | triple line_read column_read offset_read =>
      dsimp only at line_read column_read offset_read
      simp [ofJson, line_read, column_read, offset_read, bind, Except.bind]

/-- **The values that are read as points.** -/
theorem exists_ofJson_iff {value : Json} (h : value.Ordered) :
    (∃ point, ofJson value = .ok point) ↔ value.IsPoint := by
  simp only [ofJson_eq_ok_iff h]
  constructor
  · rintro ⟨point, hpoint⟩
    cases hpoint with
    | object hline line_read hcolumn column_read hoffset =>
      refine .object hline (Json.isSize_iff.mpr ⟨_, line_read⟩) hcolumn
        (Json.isSize_iff.mpr ⟨_, column_read⟩) fun offset hget => ?_
      exact Json.exists_toOptionalSize_iff.mp
        (exists_fieldIs_iff.mp ⟨_, hoffset⟩ rfl offset hget)
    | pair line_read column_read _ =>
      exact .pair (Json.isSize_iff.mpr ⟨_, line_read⟩) (Json.isSize_iff.mpr ⟨_, column_read⟩)
    | triple line_read column_read offset_read =>
      exact .triple (Json.isSize_iff.mpr ⟨_, line_read⟩) (Json.isSize_iff.mpr ⟨_, column_read⟩)
        (Json.exists_toOptionalSize_iff.mp ⟨_, offset_read⟩)
  · intro hpoint
    cases hpoint with
    | object hline line_isSize hcolumn column_isSize hoffset =>
      obtain ⟨line, line_read⟩ := Json.isSize_iff.mp line_isSize
      obtain ⟨column, column_read⟩ := Json.isSize_iff.mp column_isSize
      obtain ⟨offset, offset_read⟩ := exists_fieldIs_iff.mpr fun _ offset hget =>
        Json.exists_toOptionalSize_iff.mpr (hoffset offset hget)
      exact ⟨⟨line, column, offset⟩, .object hline line_read hcolumn column_read offset_read⟩
    | pair hline hcolumn =>
      obtain ⟨line, line_read⟩ := Json.isSize_iff.mp hline
      obtain ⟨column, column_read⟩ := Json.isSize_iff.mp hcolumn
      exact ⟨⟨line, column, none⟩, .pair line_read column_read rfl⟩
    | triple hline hcolumn hoffset =>
      obtain ⟨line, line_read⟩ := Json.isSize_iff.mp hline
      obtain ⟨column, column_read⟩ := Json.isSize_iff.mp hcolumn
      obtain ⟨offset, offset_read⟩ := Json.exists_toOptionalSize_iff.mpr hoffset
      exact ⟨⟨line, column, offset⟩, .triple line_read column_read offset_read⟩

end Point

/-! ## Positions -/

namespace Position

/-- Each field of a position is read from the member of its name. -/
theorem readMembers_eq_ok_iff {members : Members Json} (h : members.names.Nodup)
    {start draft : Draft} :
    readMembers start members = .ok draft ↔
      FieldIs true members "start" (fun value => (Point.ofJson value).map some) start.start
        draft.start ∧
      FieldIs true members "end" (fun value => (Point.ofJson value).map some) start.stop
        draft.stop := by
  induction members generalizing start with
  | nil =>
    obtain ⟨_, _⟩ := start
    obtain ⟨_, _⟩ := draft
    simp [readMembers, fieldIs_nil, eq_comm]
  | cons entry rest ih =>
    obtain ⟨name, value⟩ := entry
    obtain ⟨hname, hrest⟩ := List.nodup_cons.mp h
    have ih := @ih hrest
    rw [readMembers]
    by_cases hstart : name = "start"
    · subst hstart
      simp only [if_pos, bind_eq_ok_iff, ih, fieldIs_cons_self hname, map_eq_ok_iff,
        fieldIs_cons_of_ne (show "start" ≠ "end" by decide)]
      constructor
      · rintro ⟨point, hread, h₁, h₂⟩
        exact ⟨⟨_, ⟨point, hread, rfl⟩, h₁⟩, h₂⟩
      · rintro ⟨⟨_, ⟨point, hread, rfl⟩, h₁⟩, h₂⟩
        exact ⟨point, hread, h₁, h₂⟩
    rw [if_neg hstart, fieldIs_cons_of_ne hstart]
    by_cases hstop : name = "end"
    · subst hstop
      simp only [if_pos, bind_eq_ok_iff, ih, fieldIs_cons_self hname, map_eq_ok_iff]
      constructor
      · rintro ⟨point, hread, h₁, h₂⟩
        exact ⟨h₁, _, ⟨point, hread, rfl⟩, h₂⟩
      · rintro ⟨h₁, _, ⟨point, hread, rfl⟩, h₂⟩
        exact ⟨point, hread, h₁, h₂⟩
    rw [if_neg hstop, fieldIs_cons_of_ne hstop, ih]

/-- A position from an object. -/
theorem ofJson_obj_eq_ok_iff {members : Members Json} (h : members.names.Nodup)
    {position : Position} :
    ofJson (.obj members) = .ok position ↔
      (∃ start, Members.get? members "start" = some start ∧
        Point.ofJson start = .ok position.start) ∧
      ∃ stop, Members.get? members "end" = some stop ∧ Point.ofJson stop = .ok position.stop := by
  rw [ofJson, bind_eq_ok_iff, ← fieldIs_some_iff, ← fieldIs_some_iff]
  simp only [readMembers_eq_ok_iff h]
  obtain ⟨start, stop⟩ := position
  constructor
  · rintro ⟨⟨readStart, readStop⟩, ⟨h₁, h₂⟩, hposition⟩
    dsimp only at h₁ h₂ hposition
    split at hposition
    · cases hposition
      exact ⟨h₁, h₂⟩
    · cases hposition
    · cases hposition
  · rintro ⟨h₁, h₂⟩
    exact ⟨⟨some start, some stop⟩, ⟨h₁, h₂⟩, rfl⟩

/-- How a position is read: from the members of an object, or from the items of an array. -/
inductive ReadFrom (position : Position) : Json → Prop
  | object {members : Members Json} {start stop : Json}
    (hstart : Members.get? members "start" = some start)
    (start_read : Point.ofJson start = .ok position.start)
    (hstop : Members.get? members "end" = some stop)
    (stop_read : Point.ofJson stop = .ok position.stop) : ReadFrom position (.obj members)
  | pair {start stop : Json} (start_read : Point.ofJson start = .ok position.start)
    (stop_read : Point.ofJson stop = .ok position.stop) : ReadFrom position (.arr [start, stop])

/-- A position is read from an object or from an array. -/
theorem ofJson_eq_ok_iff {value : Json} (h : value.Ordered) {position : Position} :
    ofJson value = .ok position ↔ ReadFrom position value := by
  constructor
  · intro hposition
    unfold ofJson at hposition
    split at hposition
    · next members =>
      rw [← ofJson.eq_1, ofJson_obj_eq_ok_iff (Json.ordered_obj.mp h).1.nodup] at hposition
      obtain ⟨⟨start, hstart, start_read⟩, stop, hstop, stop_read⟩ := hposition
      exact .object hstart start_read hstop stop_read
    · cases hposition
    · obtain ⟨_, _, hposition⟩ := bind_eq_ok_iff.mp hposition
      cases hposition
    · obtain ⟨start, start_read, hposition⟩ := bind_eq_ok_iff.mp hposition
      obtain ⟨stop, stop_read, hposition⟩ := bind_eq_ok_iff.mp hposition
      split at hposition
      · next hrest =>
        cases hposition
        rw [List.isEmpty_iff] at hrest
        subst hrest
        exact .pair start_read stop_read
      · cases hposition
    · cases hposition
  · intro hposition
    obtain ⟨start, stop⟩ := position
    cases hposition with
    | object hstart start_read hstop stop_read =>
      exact (ofJson_obj_eq_ok_iff (Json.ordered_obj.mp h).1.nodup).mpr
        ⟨⟨_, hstart, start_read⟩, _, hstop, stop_read⟩
    | pair start_read stop_read =>
      dsimp only at start_read stop_read
      simp [ofJson, start_read, stop_read, bind, Except.bind]

/-- **The values that are read as positions.** -/
theorem exists_ofJson_iff {value : Json} (h : value.Ordered) :
    (∃ position, ofJson value = .ok position) ↔ value.IsPosition := by
  simp only [ofJson_eq_ok_iff h]
  constructor
  · rintro ⟨position, hposition⟩
    cases hposition with
    | object hstart start_read hstop stop_read =>
      exact .object hstart ((Point.exists_ofJson_iff (h.get? hstart)).mp ⟨_, start_read⟩) hstop
        ((Point.exists_ofJson_iff (h.get? hstop)).mp ⟨_, stop_read⟩)
    | pair start_read stop_read =>
      have hitems := Json.ordered_arr.mp h
      exact .pair ((Point.exists_ofJson_iff (hitems _ (by simp))).mp ⟨_, start_read⟩)
        ((Point.exists_ofJson_iff (hitems _ (by simp))).mp ⟨_, stop_read⟩)
  · intro hposition
    cases hposition with
    | object hstart start_isPoint hstop stop_isPoint =>
      obtain ⟨start, start_read⟩ := (Point.exists_ofJson_iff (h.get? hstart)).mpr start_isPoint
      obtain ⟨stop, stop_read⟩ := (Point.exists_ofJson_iff (h.get? hstop)).mpr stop_isPoint
      exact ⟨⟨start, stop⟩, .object hstart start_read hstop stop_read⟩
    | pair hstart hstop =>
      have hitems := Json.ordered_arr.mp h
      obtain ⟨start, start_read⟩ := (Point.exists_ofJson_iff (hitems _ (by simp))).mpr hstart
      obtain ⟨stop, stop_read⟩ := (Point.exists_ofJson_iff (hitems _ (by simp))).mpr hstop
      exact ⟨⟨start, stop⟩, .pair start_read stop_read⟩

/-- A position that may be missing is read from `null` or from a position. -/
theorem ofOptionalJson_eq_ok_iff {value : Json} {position : Option Position} :
    ofOptionalJson value = .ok position ↔
      value = .null ∧ position = none ∨ ∃ p, ofJson value = .ok p ∧ position = some p := by
  unfold ofOptionalJson
  split
  · simp [ofJson, eq_comm]
  · next hnull =>
    rw [map_eq_ok_iff]
    constructor
    · rintro ⟨p, hp, rfl⟩
      exact .inr ⟨p, hp, rfl⟩
    · rintro (⟨h, -⟩ | ⟨p, hp, rfl⟩)
      · exact absurd h hnull
      · exact ⟨p, hp, rfl⟩

/-- The values that are read as positions, or as none. -/
theorem exists_ofOptionalJson_iff {value : Json} (h : value.Ordered) :
    (∃ position, ofOptionalJson value = .ok position) ↔ value = .null ∨ value.IsPosition := by
  simp only [ofOptionalJson_eq_ok_iff, ← exists_ofJson_iff h]
  constructor
  · rintro ⟨_, ⟨hnull, -⟩ | ⟨p, hp, -⟩⟩
    · exact .inl hnull
    · exact .inr ⟨p, hp⟩
  · rintro (hnull | ⟨p, hp⟩)
    · exact ⟨none, .inl ⟨hnull, rfl⟩⟩
    · exact ⟨some p, .inr ⟨p, hp, rfl⟩⟩

end Position

/-! ## Nodes -/

namespace Hast

/-- A name is that of a kind if it is its type. -/
theorem Kind.ofName?_eq_some_iff {name : String} {kind : Kind} :
    ofName? name = some kind ↔ name = kind.typeName := by
  constructor
  · intro h
    unfold ofName? at h
    split_ifs at h <;> cases h <;> assumption
  · rintro rfl
    exact ofName?_typeName kind

/-- The type of a kind is one of the five. -/
theorem Kind.typeName_mem (kind : Kind) : kind.typeName ∈ Json.typeNames := by
  cases kind <;> decide

/-- What has a tag name has children too. -/
theorem Kind.hasChildren_of_hasTag {kind : Kind} (h : kind.hasTag) : kind.hasChildren := by
  cases kind with
  | element => rfl
  | root | text | comment | raw => cases h

/-- A value has the kind that its type names. -/
theorem kindOf?_eq_some_iff {value : Json} {kind : Kind} :
    kindOf? value = some kind ↔ value.get? "type" = some (.str kind.typeName) := by
  cases value with
  | obj members =>
    rw [kindOf?, Kind.ofMembers?, Option.bind_eq_some_iff]
    simp only [Option.bind_eq_some_iff, Kind.ofName?_eq_some_iff, Json.get?]
    constructor
    · rintro ⟨_, ⟨found, hfound, hstr⟩, rfl⟩
      cases found with
      | str => cases hstr; exact hfound
      | null | bool | num | arr | obj => cases hstr
    · intro h
      exact ⟨_, ⟨_, h, rfl⟩, rfl⟩
  | null | bool | num | str | arr => simp [kindOf?, Json.get?]

/-- A value has no kind if its type is none of the five. -/
theorem kindOf?_eq_none_iff {value : Json} :
    kindOf? value = none ↔ ∀ name ∈ Json.typeNames, value.get? "type" ≠ some (.str name) := by
  constructor
  · intro h name hname htype
    have hkind : ∃ kind : Kind, kind.typeName = name := by
      simp only [Json.typeNames, List.mem_cons, List.not_mem_nil, or_false] at hname
      rcases hname with rfl | rfl | rfl | rfl | rfl
      · exact ⟨.root, rfl⟩
      · exact ⟨.element, rfl⟩
      · exact ⟨.text, rfl⟩
      · exact ⟨.comment, rfl⟩
      · exact ⟨.raw, rfl⟩
    obtain ⟨kind, rfl⟩ := hkind
    rw [kindOf?_eq_some_iff.mpr htype] at h
    cases h
  · intro h
    cases hkind : kindOf? value with
    | none => rfl
    | some kind => exact absurd (kindOf?_eq_some_iff.mp hkind) (h _ kind.typeName_mem)

namespace Node

/-- The value has the members of a node of the kind, and the items of its `children` array have a
property. -/
structure FieldsFit (kind : Kind) (p : Json → Prop) (value : Json) : Prop where
  position : value.HasPosition
  array : kind.hasChildren → ∀ children, value.get? "children" = some children →
    ∃ items, children = .arr items
  items : kind.hasChildren → ∀ items, value.get? "children" = some (.arr items) →
    ∀ item ∈ items, p item
  tagName : kind.hasTag → ∃ tagName, value.get? "tagName" = some (.str tagName)
  properties : kind.hasTag → ∀ properties, value.get? "properties" = some properties →
    ∃ members, properties = .obj members
  value : kind.hasValue → ∃ text, value.get? "value" = some (.str text)

/-- The property of the items may be replaced by a weaker one. -/
theorem FieldsFit.imp {kind : Kind} {p q : Json → Prop} {value : Json}
    (hp : ∀ item ∈ childItems value, p item → q item) (h : FieldsFit kind p value) :
    FieldsFit kind q value := by
  refine ⟨h.position, h.array, fun has items hget item hitem => ?_, h.tagName, h.properties,
    h.value⟩
  rw [childItems_of_get? hget] at hp
  exact hp item hitem (h.items has items hget item hitem)

/-- A text is read from a string. -/
theorem readString_eq_ok_iff {value : Json} {text : String} :
    readString value = .ok text ↔ value = .str text := by
  cases value <;> simp [readString]

/-- Children are read from an array of values that are read as nodes. -/
theorem exists_readChildren_iff {value : Json} :
    (∃ children, readChildren value = .ok children) ↔
      ∃ items, value = .arr items ∧ ∀ item ∈ items, ∃ node, ofJson item = .ok node := by
  cases value <;> simp [readChildren, exists_ofJsonAll_iff]

/-- Properties are read from an object, whatever its members. -/
theorem exists_readProperties_iff {value : Json} :
    (∃ properties, readProperties value = .ok properties) ↔ ∃ members, value = .obj members := by
  cases value <;> simp [readProperties]

/-- **A value of a kind is read as a node exactly when its members are those of the kind.** -/
theorem exists_ofJson_iff_fieldsFit {value : Json} (h : value.Ordered) {kind : Kind}
    (hkind : kindOf? value = some kind) :
    (∃ node, ofJson value = .ok node) ↔
      FieldsFit kind (fun item => ∃ node, ofJson item = .ok node) value := by
  constructor
  · rintro ⟨node, hnode⟩
    obtain ⟨members, draft, rfl, hreads, hdraft⟩ := reads_of_ofJson h hnode hkind
    obtain ⟨htag, hvalue⟩ := exists_ofDraft_iff.mp ⟨node, hdraft⟩
    have hchildren := exists_fieldIs_iff.mp ⟨_, hreads.children⟩
    simp only [exists_readChildren_iff] at hchildren
    refine ⟨fun position hget => ?_, fun has children hget => ?_, fun has items hget => ?_,
      fun has => ?_, fun has properties hget => ?_, fun has => ?_⟩
    · exact (Position.exists_ofOptionalJson_iff (h.get? hget)).mp
        (exists_fieldIs_iff.mp ⟨_, hreads.position⟩ rfl position hget)
    · obtain ⟨items, rfl, -⟩ := hchildren has children hget
      exact ⟨items, rfl⟩
    · obtain ⟨_, heq, hitems⟩ := hchildren has _ hget
      cases heq
      exact hitems
    · obtain ⟨_, text, hget, hread⟩ := exists_required_iff.mp ⟨_, hreads.tagName, htag⟩ has
      exact ⟨text, readString_eq_ok_iff.mp hread ▸ hget⟩
    · exact exists_readProperties_iff.mp
        (exists_fieldIs_iff.mp ⟨_, hreads.properties⟩ has properties hget)
    · obtain ⟨_, text, hget, hread⟩ := exists_required_iff.mp ⟨_, hreads.value, hvalue⟩ has
      exact ⟨text, readString_eq_ok_iff.mp hread ▸ hget⟩
  · intro hfit
    cases value with
    | obj members =>
      -- The fields are found one by one; together they are a draft that is complete.
      obtain ⟨position, hposition⟩ := exists_fieldIs_iff.mpr fun _ value hget =>
        (Position.exists_ofOptionalJson_iff (h.get? hget)).mpr (hfit.position value hget)
      obtain ⟨children, hchildren⟩ := exists_fieldIs_iff.mpr fun has value hget => by
        obtain ⟨items, rfl⟩ := hfit.array has value hget
        exact exists_readChildren_iff.mpr ⟨items, rfl, hfit.items has items hget⟩
      obtain ⟨tagName, htagName, htag⟩ := exists_required_iff.mpr fun has => by
        obtain ⟨text, hget⟩ := hfit.tagName has
        exact ⟨_, text, hget, readString_eq_ok_iff.mpr rfl⟩
      obtain ⟨properties, hproperties⟩ := exists_fieldIs_iff.mpr fun has value hget =>
        exists_readProperties_iff.mpr (hfit.properties has value hget)
      obtain ⟨text, htext, hvalue⟩ := exists_required_iff.mpr fun has => by
        obtain ⟨text, hget⟩ := hfit.value has
        exact ⟨_, text, hget, readString_eq_ok_iff.mpr rfl⟩
      let draft : Draft := ⟨tagName, properties, children, position, text,
        (members.filter fun entry => !kind.reads entry.1).reverse⟩
      have hreads : Reads kind {} members draft :=
        ⟨hposition, hchildren, htagName, hproperties, htext, (List.append_nil _).symm⟩
      obtain ⟨node, hnode⟩ : ∃ node, ofDraft kind draft = .ok node :=
        exists_ofDraft_iff.mpr ⟨htag, hvalue⟩
      refine ⟨node, ?_⟩
      rw [kindOf?] at hkind
      rw [ofJson, hkind]
      refine bind_eq_ok_iff.mpr ⟨_, ?_, hnode⟩
      rwa [readMembers_eq_ok_iff (Json.ordered_obj.mp h).1.nodup]
    | null | bool | num | str | arr => cases hkind

/-- A value of a kind is in the grammar exactly when its members are those of the kind. -/
theorem isNode_iff_fieldsFit {value : Json} {kind : Kind}
    (htype : value.get? "type" = some (.str kind.typeName)) :
    value.IsNode ↔ FieldsFit kind Json.IsNode value := by
  constructor
  · intro h
    -- The type of the value decides which rule of the grammar it is.
    have hsame {other : Kind} (hother : value.get? "type" = some (.str other.typeName)) :
        kind = other :=
      Option.some.inj ((kindOf?_eq_some_iff.mpr htype).symm.trans (kindOf?_eq_some_iff.mpr hother))
    cases h with
    | kept hnone => exact absurd htype (hnone _ kind.typeName_mem)
    | root hname harray hitems hposition =>
      obtain rfl : kind = .root := hsame hname
      exact ⟨hposition, fun _ => harray, fun _ => hitems, nofun, nofun, nofun⟩
    | element hname harray hitems hposition htagName hproperties =>
      obtain rfl : kind = .element := hsame hname
      exact ⟨hposition, fun _ => harray, fun _ => hitems, fun _ => htagName, fun _ => hproperties,
        nofun⟩
    | leaf hmem hname hvalue hposition =>
      simp only [List.mem_cons, List.not_mem_nil, or_false] at hmem
      rcases hmem with rfl | rfl | rfl
      · obtain rfl : kind = .text := hsame hname
        exact ⟨hposition, nofun, nofun, nofun, nofun, fun _ => hvalue⟩
      · obtain rfl : kind = .comment := hsame hname
        exact ⟨hposition, nofun, nofun, nofun, nofun, fun _ => hvalue⟩
      · obtain rfl : kind = .raw := hsame hname
        exact ⟨hposition, nofun, nofun, nofun, nofun, fun _ => hvalue⟩
  · intro h
    cases kind with
    | root => exact .root htype (h.array rfl) (h.items rfl) h.position
    | element =>
      exact .element htype (h.array rfl) (h.items rfl) h.position (h.tagName rfl) (h.properties rfl)
    | text | comment | raw => exact .leaf (by decide) htype (h.value rfl) h.position

/-- **The values that are read as nodes are those of the grammar.** -/
theorem exists_ofJson_iff {value : Json} (h : value.Ordered) :
    (∃ node, ofJson value = .ok node) ↔ value.IsNode := by
  induction value using induction_childItems with
  | step value ih =>
    cases hkind : kindOf? value with
    | none =>
      exact ⟨fun _ => .kept (kindOf?_eq_none_iff.mp hkind),
        fun _ => ⟨_, ofJson_of_kindOf?_eq_none hkind⟩⟩
    | some kind =>
      rw [exists_ofJson_iff_fieldsFit h hkind, isNode_iff_fieldsFit (kindOf?_eq_some_iff.mp hkind)]
      have hitems {item : Json} (hitem : item ∈ childItems value) :=
        ih item hitem (ordered_of_mem_childItems h hitem)
      exact ⟨FieldsFit.imp fun item hitem => (hitems hitem).mp,
        FieldsFit.imp fun item hitem => (hitems hitem).mpr⟩

/-- A node has the kind of the value that it is read from. -/
theorem kind?_of_ofJson {value : Json} {node : Node} (h : value.Ordered)
    (hnode : ofJson value = .ok node) : node.kind? = kindOf? value := by
  cases hkind : kindOf? value with
  | none =>
    rw [ofJson_of_kindOf?_eq_none hkind] at hnode
    cases hnode
    rfl
  | some kind =>
    obtain ⟨_, _, _, _, hdraft⟩ := reads_of_ofJson h hnode hkind
    exact kind?_of_ofDraft hdraft

/-- **A value is read as a tree exactly when it is in the grammar.**  The node is of the kind that
the type names, and opaque where it names none. -/
theorem ofJson_grammar {value : Json} (h : value.Ordered) :
    ((∃ node, ofJson value = .ok node) ↔ value.IsNode) ∧
    ∀ node, ofJson value = .ok node →
      (∀ kind, node.kind? = some kind ↔ value.get? "type" = some (.str kind.typeName)) ∧
      ((∀ name ∈ Json.typeNames, value.get? "type" ≠ some (.str name)) → node = other value) := by
  refine ⟨exists_ofJson_iff h, fun node hnode => ⟨fun kind => ?_, fun htype => ?_⟩⟩
  · rw [kind?_of_ofJson h hnode, kindOf?_eq_some_iff]
  · rw [ofJson_of_kindOf?_eq_none (kindOf?_eq_none_iff.mpr htype)] at hnode
    cases hnode
    rfl

/-- An element with a position in arrays is read, and its child of another type has no shape to
keep. -/
theorem ofJson_grammar_arrays :
    let child : Json := .obj [("tagName", .null), ("type", .str "figure")]
    let position : Json := .arr [.arr [.nat 1, .nat 1], .arr [.nat 1, .nat 5, .null]]
    let value : Json := .obj [("children", .arr [child]), ("position", position),
      ("tagName", .str "p"), ("type", .str "element")]
    value.IsNode ∧ ofJson value = .ok (.element "p" [] [.other child]
      (some ⟨⟨1, 1, none⟩, ⟨1, 5, none⟩⟩) []) := by
  intro child position value
  have hordered : value.Ordered := by
    have h₁ : "children" < "position" := by decide
    have h₂ : "position" < "tagName" := by decide
    have h₃ : "tagName" < "type" := by decide
    simp [value, child, position, Json.nat, Json.ordered_obj, Json.ordered_arr,
      Members.sorted_cons, Members.sorted_nil, h₁, h₂, h₃, -String.lt_iff_ltb]
  have hread : ofJson value = .ok (.element "p" [] [.other child]
      (some ⟨⟨1, 1, none⟩, ⟨1, 5, none⟩⟩) []) := rfl
  exact ⟨(ofJson_grammar hordered).1.mp ⟨_, hread⟩, hread⟩

end Node

end Hast

end Hypermark
