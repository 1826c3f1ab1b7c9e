import Hypermark.Proofs.Json.Parts
import Hypermark.Proofs.Json.ReadNumber

/-!
# What can be read again

A value fits (`Fits`) when no more arrays and objects lie inside one another than may open, and all
its numbers are held.  That is all that its text needs to be read again; and a value that is read
fits.

`reread` is what becomes of the numbers of a value that is read again; everything else stays.
-/

namespace Hypermark.Json

/-! ## Nesting -/

/-- Items nest no deeper than each of them does. -/
theorem nestingItems_le_iff {items : List Json} {depth : Nat} :
    nestingItems items ≤ depth ↔ ∀ item ∈ items, item.nesting ≤ depth := by
  induction items with
  | nil => simp [nestingItems]
  | cons item items ih => rw [nestingItems, max_le_iff, ih, List.forall_mem_cons]

/-- Members nest no deeper than each of their values does. -/
theorem nestingMembers_le_iff {members : List (String × Json)} {depth : Nat} :
    nestingMembers members ≤ depth ↔ ∀ entry ∈ members, entry.2.nesting ≤ depth := by
  induction members with
  | nil => simp [nestingMembers]
  | cons entry members ih => rw [nestingMembers, max_le_iff, ih, List.forall_mem_cons]

/-- An array nests one deeper than its items. -/
theorem nesting_arr_le_iff {items : List Json} {depth : Nat} :
    (arr items).nesting ≤ depth + 1 ↔ ∀ item ∈ items, item.nesting ≤ depth := by
  rw [nesting, Nat.add_comm, Nat.add_le_add_iff_right, nestingItems_le_iff]

/-- An object nests one deeper than the values of its members. -/
theorem nesting_obj_le_iff {members : List (String × Json)} {depth : Nat} :
    (obj members).nesting ≤ depth + 1 ↔ ∀ entry ∈ members, entry.2.nesting ≤ depth := by
  rw [nesting, Nat.add_comm, Nat.add_le_add_iff_right, nestingMembers_le_iff]

/-- The value of a member nests less deep than its object. -/
theorem nesting_lt_of_get? {members : Members Json} {name : String} {value : Json}
    (h : Members.get? members name = some value) : value.nesting < (obj members).nesting :=
  nesting_lt_of_mem_parts
    (List.mem_map.mpr ⟨_, Members.mem_of_get? h, rfl⟩)

/-! ## Values that fit -/

/-- If the value is a number, it is held. -/
def NumberIsHeld : Json → Prop
  | num value => value.Held
  | _ => True

/-- Every number in the value is held. -/
def Held : Json → Prop := Everywhere NumberIsHeld

/-- The value can be read where `depth` more arrays and objects may open. -/
structure Fits (depth : Nat) (value : Json) : Prop where
  nesting_le : value.nesting ≤ depth
  held : value.Held

section Fits

variable {depth : Nat}

/-- What fits where few brackets may open fits where more may. -/
theorem Fits.mono {more : Nat} {value : Json} (h : value.Fits depth) (hle : depth ≤ more) :
    value.Fits more :=
  ⟨h.nesting_le.trans hle, h.held⟩

/-- The numbers in an array are held if those in its items are. -/
theorem held_arr {items : List Json} : (arr items).Held ↔ ∀ item ∈ items, item.Held := by
  unfold Held
  rw [everywhere_iff]
  simp only [NumberIsHeld, parts, true_and]

/-- The numbers in an object are held if those in the values of its members are. -/
theorem held_obj {members : List (String × Json)} :
    (obj members).Held ↔ ∀ entry ∈ members, entry.2.Held := by
  unfold Held
  rw [everywhere_iff]
  simp only [NumberIsHeld, parts, List.forall_mem_map, true_and]

/-- There is nothing in `null` that could not be read. -/
@[simp] theorem fits_null : null.Fits depth :=
  ⟨Nat.zero_le _, everywhere_of_parts_eq_nil rfl trivial⟩

/-- Nor is there in a truth value. -/
@[simp] theorem fits_bool {value : Bool} : (bool value).Fits depth :=
  ⟨Nat.zero_le _, everywhere_of_parts_eq_nil rfl trivial⟩

/-- Nor is there in a string. -/
@[simp] theorem fits_str {value : String} : (str value).Fits depth :=
  ⟨Nat.zero_le _, everywhere_of_parts_eq_nil rfl trivial⟩

/-- A number fits at any depth if it is held. -/
@[simp] theorem fits_num {value : JsonNumber} : (num value).Fits depth ↔ value.Held :=
  ⟨fun h => (everywhere_iff.mp h.held).1,
    fun h => ⟨Nat.zero_le _, everywhere_of_parts_eq_nil rfl h⟩⟩

/-- An array fits if its items fit where one bracket less may open. -/
theorem fits_arr {items : List Json} :
    (arr items).Fits (depth + 1) ↔ ∀ item ∈ items, item.Fits depth := by
  constructor
  · rintro ⟨hnesting, hheld⟩ item hitem
    exact ⟨nesting_arr_le_iff.mp hnesting item hitem, held_arr.mp hheld item hitem⟩
  · intro h
    exact ⟨nesting_arr_le_iff.mpr fun item hitem => (h item hitem).nesting_le,
      held_arr.mpr fun item hitem => (h item hitem).held⟩

/-- An object fits if the values of its members do, where one bracket less may open. -/
theorem fits_obj {members : List (String × Json)} :
    (obj members).Fits (depth + 1) ↔ ∀ entry ∈ members, entry.2.Fits depth := by
  constructor
  · rintro ⟨hnesting, hheld⟩ entry hentry
    exact ⟨nesting_obj_le_iff.mp hnesting entry hentry, held_obj.mp hheld entry hentry⟩
  · intro h
    exact ⟨nesting_obj_le_iff.mpr fun entry hentry => (h entry hentry).nesting_le,
      held_obj.mpr fun entry hentry => (h entry hentry).held⟩

/-- The value of a member of an object that fits does too, where one bracket less may open. -/
theorem Fits.get? {members : Members Json} (h : (obj members).Fits (depth + 1)) {name : String}
    {value : Json} (hget : Members.get? members name = some value) : value.Fits depth :=
  fits_obj.mp h _ (Members.mem_of_get? hget)

/-- An object without members fits wherever a bracket may open. -/
theorem fits_empty (h : 0 < depth) : (obj []).Fits depth := by
  obtain ⟨depth, rfl⟩ := Nat.exists_eq_add_of_lt h
  exact fits_obj.mpr (by simp)

/-- Where nothing may open, there is neither an array nor an object. -/
theorem not_fits_arr_zero {items : List Json} : ¬ (arr items).Fits 0 := by
  intro h
  have := h.nesting_le
  rw [nesting] at this
  omega

/-- Where no bracket may open, no object fits. -/
theorem not_fits_obj_zero {members : List (String × Json)} : ¬ (obj members).Fits 0 := by
  intro h
  have := h.nesting_le
  rw [nesting] at this
  omega

/-- A value whose numbers are words fits if it is not nested too deep. -/
theorem Words.held {value : Json} (h : value.Words) : value.Held :=
  Everywhere.imp (fun v hv => by
    cases v with
    | num number =>
      cases number with
      | int => exact hv
      | real => exact absurd hv id
    | _ => trivial) h

/-- What fits with its members in order fits. -/
theorem fits_of_sorted {value : Json} (hdistinct : value.Distinct) (h : value.sorted.Fits depth) :
    value.Fits depth := by
  induction value using induction_parts generalizing depth with
  | step value ih =>
    cases value with
    | arr items =>
      rw [sorted, sortedItems_eq_map] at h
      cases depth with
      | zero => exact absurd h not_fits_arr_zero
      | succ depth =>
        refine fits_arr.mpr fun item hitem => ?_
        exact ih item hitem (distinct_arr.mp hdistinct item hitem)
          (fits_arr.mp h _ (List.mem_map_of_mem hitem))
    | obj members =>
      rw [sorted, sortedMembers_eq_map] at h
      obtain ⟨hnames, hvalues⟩ := distinct_obj.mp hdistinct
      cases depth with
      | zero => exact absurd h not_fits_obj_zero
      | succ depth =>
        refine fits_obj.mpr fun entry hentry => ?_
        have hnodup :
            ((members.map fun entry => (entry.1, entry.2.sorted)).map Prod.fst).Nodup := by
          rw [List.map_map]
          exact hnames
        have hmember := (Members.mem_ofList_iff hnodup).mpr (List.mem_map_of_mem hentry)
        exact ih entry.2 (List.mem_map_of_mem hentry) (hvalues entry hentry)
          (fits_obj.mp h _ hmember)
    | null | bool _ | num _ | str _ =>
      simp only [sorted] at h
      exact h

end Fits

/-! ## Reading again -/

mutual

/-- The value with its numbers as they are read again. -/
def reread : Json → Json
  | num value => num value.reread
  | arr items => arr (rereadItems items)
  | obj members => obj (rereadMembers members)
  | value => value

/-- The values with their numbers as they are read again. -/
def rereadItems : List Json → List Json
  | [] => []
  | item :: items => item.reread :: rereadItems items

/-- The members with the numbers of their values as they are read again. -/
def rereadMembers : List (String × Json) → List (String × Json)
  | [] => []
  | (name, value) :: members => (name, value.reread) :: rereadMembers members

end

/-- Items are read again one by one. -/
@[simp] theorem rereadItems_eq_map (items : List Json) : rereadItems items = items.map reread := by
  induction items with
  | nil => rfl
  | cons item items ih => rw [rereadItems, ih, List.map_cons]

/-- So are the values of members, and names are kept. -/
@[simp] theorem rereadMembers_eq_map (members : List (String × Json)) :
    rereadMembers members = members.map fun entry => (entry.1, entry.2.reread) := by
  induction members with
  | nil => rfl
  | cons entry members ih => rw [rereadMembers, ih, List.map_cons]

/-- Reading again does not care for the order of members. -/
theorem sorted_reread (value : Json) : value.reread.sorted = value.sorted.reread := by
  induction value using induction_parts with
  | step value ih =>
    cases value with
    | arr items =>
      simp only [reread, sorted, rereadItems_eq_map, sortedItems_eq_map, List.map_map]
      exact congrArg arr (List.map_congr_left ih)
    | obj members =>
      simp only [reread, sorted, rereadMembers_eq_map, sortedMembers_eq_map, List.map_map]
      rw [← Members.ofList_map, List.map_map]
      congr 2
      refine List.map_congr_left fun entry hentry => ?_
      exact congrArg (entry.1, ·) (ih entry.2 (List.mem_map_of_mem hentry))
    | null | bool _ | num _ | str _ => simp only [reread, sorted]

/-- Integers are read again as they are. -/
theorem Words.reread_eq {value : Json} (h : value.Words) : value.reread = value := by
  induction h with
  | @intro value here _ ih =>
    cases value with
    | arr items =>
      have hitems : items.map reread = items := by
        conv_rhs => rw [← List.map_id items]
        exact List.map_congr_left ih
      rw [reread, rereadItems_eq_map, hitems]
    | obj members =>
      have hmembers : members.map (fun entry => (entry.1, entry.2.reread)) = members := by
        conv_rhs => rw [← List.map_id members]
        refine List.map_congr_left fun entry hentry => ?_
        rw [ih _ (List.mem_map_of_mem hentry)]
        rfl
      rw [reread, rereadMembers_eq_map, hmembers]
    | num value =>
      cases value with
      | int => simp only [reread, JsonNumber.reread]
      | real => exact absurd here id
    | null | bool _ | str _ => simp only [reread]

/-- Reading again keeps the names in order. -/
theorem Ordered.reread {value : Json} (h : value.Ordered) : value.reread.Ordered := by
  induction value using induction_parts with
  | step value ih =>
    cases value with
    | arr items =>
      rw [Json.reread, rereadItems_eq_map]
      refine ordered_arr.mpr (List.forall_mem_map.mpr fun item hitem => ?_)
      exact ih item hitem (ordered_arr.mp h item hitem)
    | obj members =>
      obtain ⟨hsorted, hvalues⟩ := ordered_obj.mp h
      rw [Json.reread, rereadMembers_eq_map]
      refine ordered_obj.mpr ⟨hsorted.map, List.forall_mem_map.mpr fun entry hentry => ?_⟩
      exact ih entry.2 (List.mem_map_of_mem hentry) (hvalues entry hentry)
    | null | bool _ | num _ | str _ => simp only [Json.reread]; simp

/-- Reading again keeps the nesting. -/
theorem nesting_reread (value : Json) : value.reread.nesting = value.nesting := by
  induction value using induction_parts with
  | step value ih =>
    cases value with
    | arr items =>
      have hitems : nestingItems (items.map reread) = nestingItems items := by
        induction items with
        | nil => rfl
        | cons item items ihItems =>
          obtain ⟨hitem, hitems⟩ := List.forall_mem_cons.mp ih
          rw [List.map_cons, nestingItems, nestingItems, hitem, ihItems hitems]
      rw [reread, rereadItems_eq_map, nesting, nesting, hitems]
    | obj members =>
      have hmembers : nestingMembers (members.map fun entry => (entry.1, entry.2.reread))
          = nestingMembers members := by
        induction members with
        | nil => rfl
        | cons entry members ihMembers =>
          obtain ⟨hvalue, hvalues⟩ := List.forall_mem_cons.mp ih
          rw [List.map_cons, nestingMembers, nestingMembers, hvalue, ihMembers hvalues]
      rw [reread, rereadMembers_eq_map, nesting, nesting, hmembers]
    | null | bool _ | num _ | str _ => simp only [reread, nesting]

/-- A member may be looked up before or after it is read again. -/
theorem get?_reread (value : Json) (name : String) :
    value.reread.get? name = (value.get? name).map reread := by
  cases value with
  | obj members =>
    rw [reread, rereadMembers_eq_map]
    exact Members.get?_map reread
  | null | bool _ | num _ | str _ | arr _ => rfl

end Hypermark.Json
