import Hypermark.Json.Basic
import Hypermark.Proofs.Members

/-!
# What holds everywhere in a JSON value

`Json.parts` are the values directly inside a value.  A value is described from the inside out: by
induction over its parts (`induction_parts`), or by a property that it and everything inside it has
(`Everywhere`).

* `Ordered`: the names of every object increase, as they do in every value that is read.
* `Distinct`: no object repeats a name.
* `Words`: every number is an integer of 64 bits.
* `sorted` brings the members of every object into order.
-/

namespace Hypermark.Json

/-- The values directly inside a value. -/
def parts : Json → List Json
  | arr items => items
  | obj members => members.map Prod.snd
  | _ => []

/-! ## Induction -/

/-- An item weighs no more than the items it is among. -/
theorem weight_le_weightItems {item : Json} {items : List Json} (h : item ∈ items) :
    item.weight ≤ weightItems items := by
  induction items with
  | nil => simp at h
  | cons first rest ih =>
    rw [weightItems]
    rcases List.mem_cons.mp h with rfl | h
    · omega
    · have := ih h
      omega

/-- The value of a member weighs no more than the members it is among. -/
theorem weight_le_weightMembers {entry : String × Json} {members : List (String × Json)}
    (h : entry ∈ members) : entry.2.weight ≤ weightMembers members := by
  induction members with
  | nil => simp at h
  | cons first rest ih =>
    obtain ⟨name, value⟩ := first
    rw [weightMembers]
    rcases List.mem_cons.mp h with rfl | h
    · dsimp only
      omega
    · have := ih h
      omega

/-- A part weighs less than the whole. -/
theorem weight_lt_of_mem_parts {value part : Json} (h : part ∈ value.parts) :
    part.weight < value.weight := by
  cases value with
  | arr items =>
    have : part.weight ≤ weightItems items := weight_le_weightItems h
    rw [weight]
    omega
  | obj members =>
    obtain ⟨entry, hentry, rfl⟩ := List.mem_map.mp h
    have := weight_le_weightMembers hentry
    rw [weight]
    omega
  | null | bool _ | num _ | str _ => simp [parts] at h

/-- What holds of a value when it holds of its parts, holds of every value. -/
theorem induction_parts {P : Json → Prop}
    (step : ∀ value : Json, (∀ part ∈ value.parts, P part) → P value) (value : Json) : P value := by
  induction hn : value.weight using Nat.strong_induction_on generalizing value with
  | _ n ih =>
    subst hn
    exact step value fun part h => ih _ (weight_lt_of_mem_parts h) part rfl

/-- A part is nested less deep than the whole. -/
theorem nesting_lt_of_mem_parts {value part : Json} (h : part ∈ value.parts) :
    part.nesting < value.nesting := by
  have items_le : ∀ {items : List Json}, part ∈ items → part.nesting ≤ nestingItems items := by
    intro items h
    induction items with
    | nil => simp at h
    | cons first rest ih =>
      rw [nestingItems]
      rcases List.mem_cons.mp h with rfl | h
      · exact le_max_left _ _
      · exact (ih h).trans (le_max_right _ _)
  have members_le : ∀ {members : List (String × Json)}, part ∈ members.map Prod.snd →
      part.nesting ≤ nestingMembers members := by
    intro members h
    induction members with
    | nil => simp at h
    | cons first rest ih =>
      rw [nestingMembers]
      rcases List.mem_cons.mp h with rfl | h
      · exact le_max_left _ _
      · exact (ih h).trans (le_max_right _ _)
  cases value with
  | arr items =>
    have : part.nesting ≤ nestingItems items := items_le h
    rw [nesting]
    omega
  | obj members =>
    have : part.nesting ≤ nestingMembers members := members_le h
    rw [nesting]
    omega
  | null | bool _ | num _ | str _ => simp [parts] at h

/-! ## Everywhere -/

/-- The value and everything inside it has a property. -/
inductive Everywhere (p : Json → Prop) : Json → Prop
  | intro {value : Json} (here : p value) (below : ∀ part ∈ value.parts, Everywhere p part) :
    Everywhere p value

/-- A property holds everywhere if it holds of the value, and everywhere in its parts. -/
theorem everywhere_iff {p : Json → Prop} {value : Json} :
    Everywhere p value ↔ p value ∧ ∀ part ∈ value.parts, Everywhere p part :=
  ⟨fun ⟨here, below⟩ => ⟨here, below⟩, fun ⟨here, below⟩ => ⟨here, below⟩⟩

/-- What holds everywhere may be weakened. -/
theorem Everywhere.imp {p q : Json → Prop} (h : ∀ value, p value → q value) {value : Json}
    (hv : Everywhere p value) : Everywhere q value := by
  induction hv with
  | intro here _ ih => exact ⟨h _ here, ih⟩

/-- A value without parts has a property everywhere when it has it. -/
theorem everywhere_of_parts_eq_nil {p : Json → Prop} {value : Json} (h : value.parts = [])
    (here : p value) : Everywhere p value :=
  ⟨here, fun part hpart => by simp [h] at hpart⟩

/-! ## Order of names -/

/-- If the value is an object, its names increase. -/
def NamesIncrease : Json → Prop
  | obj members => Members.Sorted members
  | _ => True

/-- The names of every object in the value increase. -/
def Ordered : Json → Prop := Everywhere NamesIncrease

/-- An array is ordered if its items are. -/
theorem ordered_arr {items : List Json} : (arr items).Ordered ↔ ∀ item ∈ items, item.Ordered := by
  unfold Ordered
  rw [everywhere_iff]
  simp only [NamesIncrease, parts, true_and]

/-- An object is ordered if its names increase and the values of its members are ordered. -/
theorem ordered_obj {members : List (String × Json)} :
    (obj members).Ordered ↔ Members.Sorted members ∧ ∀ entry ∈ members, entry.2.Ordered := by
  unfold Ordered
  rw [everywhere_iff]
  simp only [NamesIncrease, parts, List.forall_mem_map]

/-- There is nothing to order in `null`. -/
@[simp] theorem ordered_null : null.Ordered := everywhere_of_parts_eq_nil rfl trivial

/-- Nor is there in a truth value. -/
@[simp] theorem ordered_bool {value : Bool} : (bool value).Ordered :=
  everywhere_of_parts_eq_nil rfl trivial

/-- Nor is there in a number. -/
@[simp] theorem ordered_num {value : JsonNumber} : (num value).Ordered :=
  everywhere_of_parts_eq_nil rfl trivial

/-- Nor is there in a string. -/
@[simp] theorem ordered_str {value : String} : (str value).Ordered :=
  everywhere_of_parts_eq_nil rfl trivial

/-- What is found in an ordered object is ordered. -/
theorem Ordered.get? {members : List (String × Json)} (h : (obj members).Ordered) {name : String}
    {value : Json} (hv : Members.get? members name = some value) : value.Ordered :=
  (ordered_obj.mp h).2 _ (Members.mem_of_get? hv)

/-! ## Repeated names -/

/-- If the value is an object, its names differ. -/
def NamesDiffer : Json → Prop
  | obj members => (Members.names members).Nodup
  | _ => True

/-- No object in the value repeats a name. -/
def Distinct : Json → Prop := Everywhere NamesDiffer

/-- No name is repeated in an array if none is in its items. -/
theorem distinct_arr {items : List Json} :
    (arr items).Distinct ↔ ∀ item ∈ items, item.Distinct := by
  unfold Distinct
  rw [everywhere_iff]
  simp only [NamesDiffer, parts, true_and]

/-- No name is repeated in an object if its own differ, and none is in the values of its members. -/
theorem distinct_obj {members : List (String × Json)} :
    (obj members).Distinct ↔
      (Members.names members).Nodup ∧ ∀ entry ∈ members, entry.2.Distinct := by
  unfold Distinct
  rw [everywhere_iff]
  simp only [NamesDiffer, parts, List.forall_mem_map]

/-- Names in order do not repeat. -/
theorem Ordered.distinct {value : Json} (h : value.Ordered) : value.Distinct :=
  Everywhere.imp (fun v hv => by
    cases v with
    | obj members => exact Members.Sorted.nodup hv
    | _ => trivial) h

/-! ## Numbers -/

/-- If the value is a number, it is an integer of 64 bits, with or without a sign. -/
def NumberIsWord : Json → Prop
  | num (.int value) => JsonNumber.isWord value
  | num (.real _) => False
  | _ => True

/-- Every number in the value is an integer of 64 bits, with or without a sign. -/
def Words : Json → Prop := Everywhere NumberIsWord

/-- There is no number in a string. -/
@[simp] theorem words_str {value : String} : (str value).Words :=
  everywhere_of_parts_eq_nil rfl trivial

/-- A number has 64 bits if it is an integer of that size. -/
theorem words_num {value : Int} (h : JsonNumber.isWord value) : (num (.int value)).Words :=
  everywhere_of_parts_eq_nil rfl h

/-- The numbers in an array have 64 bits if those in its items have. -/
theorem words_arr {items : List Json} : (arr items).Words ↔ ∀ item ∈ items, item.Words := by
  unfold Words
  rw [everywhere_iff]
  simp only [NumberIsWord, parts, true_and]

/-- So have those in an object, if those in the values of its members have. -/
theorem words_obj {members : List (String × Json)} :
    (obj members).Words ↔ ∀ entry ∈ members, entry.2.Words := by
  unfold Words
  rw [everywhere_iff]
  simp only [NumberIsWord, parts, List.forall_mem_map, true_and]

/-! ## Sorting -/

mutual

/-- The value with the members of every object in order; of a repeated name the last value counts.
-/
def sorted : Json → Json
  | arr items => arr (sortedItems items)
  | obj members => obj (Members.ofList (sortedMembers members))
  | value => value

/-- The values with their members in order. -/
def sortedItems : List Json → List Json
  | [] => []
  | item :: items => item.sorted :: sortedItems items

/-- The members with the members of their values in order. -/
def sortedMembers : List (String × Json) → List (String × Json)
  | [] => []
  | (name, value) :: members => (name, value.sorted) :: sortedMembers members

end

/-- Items are put in order one by one. -/
@[simp] theorem sortedItems_eq_map (items : List Json) : sortedItems items = items.map sorted := by
  induction items with
  | nil => rfl
  | cons item items ih => rw [sortedItems, ih, List.map_cons]

/-- So are the values of members, and names are kept. -/
@[simp] theorem sortedMembers_eq_map (members : List (String × Json)) :
    sortedMembers members = members.map fun entry => (entry.1, entry.2.sorted) := by
  induction members with
  | nil => rfl
  | cons entry members ih => rw [sortedMembers, ih, List.map_cons]

/-- Sorting changes nothing in an ordered value. -/
theorem Ordered.sorted_eq {value : Json} (h : value.Ordered) : value.sorted = value := by
  induction h with
  | @intro value here _ ih =>
    cases value with
    | arr items =>
      have hitems : items.map sorted = items := by
        conv_rhs => rw [← List.map_id items]
        exact List.map_congr_left ih
      rw [sorted, sortedItems_eq_map, hitems]
    | obj members =>
      have hmembers : members.map (fun entry => (entry.1, entry.2.sorted)) = members := by
        conv_rhs => rw [← List.map_id members]
        refine List.map_congr_left fun entry hentry => ?_
        rw [ih _ (List.mem_map_of_mem hentry)]
        rfl
      rw [sorted, sortedMembers_eq_map, hmembers, Members.ofList_of_sorted here]
    | null | bool _ | num _ | str _ => simp only [sorted]

end Hypermark.Json
