import Hypermark.Members
import Mathlib.Data.String.Basic

/-!
# Members are a finite map

What an object says of a name (`get?`) decides everything about it: two objects in order that answer
alike are equal (`eq_of_get?_eq`).  Each operation is therefore described by what is read back after
it, and the facts about `ofList` and filters are read off from that.
-/

namespace Hypermark.Members

variable {α β : Type} {members : Members α} {name other : String} {value : α}

/-! ## Reading a member -/

/-- There is nothing among no members. -/
@[simp] theorem get?_nil : get? ([] : Members α) name = none := rfl

/-- The first member is found by its name, and hides others of that name. -/
theorem get?_cons {n : String} {v : α} {rest : Members α} :
    get? ((n, v) :: rest) name = if name = n then some v else get? rest name := by
  unfold get?
  rw [List.lookup_cons]
  by_cases h : name = n
  · simp [h]
  · rw [beq_false_of_ne h, if_neg h]

/-- A name without a member is not found. -/
theorem get?_eq_none_iff : get? members name = none ↔ ∀ entry ∈ members, entry.1 ≠ name := by
  unfold get?
  rw [List.lookup_eq_none_iff]
  simp only [bne_iff_ne, ne_comm]

/-- What is found is a member. -/
theorem mem_of_get? (h : get? members name = some value) : (name, value) ∈ members := by
  induction members with
  | nil => simp at h
  | cons entry rest ih =>
    obtain ⟨n, v⟩ := entry
    rw [get?_cons] at h
    split at h
    · next hn =>
      cases h
      rw [hn]
      exact List.mem_cons_self
    · exact List.mem_cons_of_mem _ (ih h)

/-- Where names do not repeat, every entry is found. -/
theorem get?_of_mem (h : members.names.Nodup) {entry : String × α} (hentry : entry ∈ members) :
    get? members entry.1 = some entry.2 := by
  induction members with
  | nil => cases hentry
  | cons first rest ih =>
    obtain ⟨hn, hrest⟩ := List.nodup_cons.mp h
    rcases List.mem_cons.mp hentry with rfl | hentry
    · rw [get?_cons, if_pos rfl]
    · have hne : entry.1 ≠ first.1 := fun heq => hn (heq ▸ List.mem_map_of_mem hentry)
      rw [get?_cons, if_neg hne]
      exact ih hrest hentry

/-- Where names do not repeat, an entry is the only one of its name. -/
theorem filter_eq_singleton (h : members.names.Nodup) (hentry : (name, value) ∈ members) :
    members.filter (fun entry => entry.1 = name) = [(name, value)] := by
  induction members with
  | nil => cases hentry
  | cons first rest ih =>
    obtain ⟨hn, hrest⟩ := List.nodup_cons.mp h
    rcases List.mem_cons.mp hentry with rfl | hentry
    · have hnone : rest.filter (fun entry => entry.1 = name) = [] := by
        refine List.filter_eq_nil_iff.mpr fun entry hmem hname => hn ?_
        exact List.mem_map.mpr ⟨entry, hmem, of_decide_eq_true hname⟩
      rw [List.filter_cons, if_pos (by simp), hnone]
    · have hne : first.1 ≠ name := fun heq => hn (heq ▸ List.mem_map_of_mem hentry)
      rw [List.filter_cons, if_neg (by simpa using hne), ih hrest hentry]

/-- What is in front is found first. -/
theorem get?_append {first second : Members α} :
    get? (first ++ second) name = (get? first name).or (get? second name) := by
  unfold get?
  rw [List.lookup_append]

/-- A filter on names hides the others. -/
theorem get?_filter (p : String → Bool) :
    get? (members.filter fun entry => p entry.1) name
      = if p name then get? members name else none := by
  induction members with
  | nil => simp
  | cons entry rest ih =>
    obtain ⟨n, v⟩ := entry
    rw [List.filter_cons]
    by_cases hn : name = n
    · subst hn
      by_cases hp : p name
      · simp [hp, get?_cons]
      · simp [hp, ih]
    · split
      · rw [get?_cons, if_neg hn, get?_cons, if_neg hn, ih]
      · rw [get?_cons, if_neg hn, ih]

/-! ## Order -/

/-- No members are in order. -/
theorem sorted_nil : Sorted ([] : Members α) := List.Pairwise.nil

/-- Members are in order if the first name is below the others, and these are in order. -/
theorem sorted_cons {entry : String × α} :
    Sorted (entry :: members) ↔ (∀ e ∈ members, entry.1 < e.1) ∧ Sorted members :=
  List.pairwise_cons

/-- Order is a matter of names only. -/
theorem sorted_iff_names : Sorted members ↔ members.names.Pairwise (· < ·) := by
  unfold Sorted names
  rw [List.pairwise_map]

/-- Names in order do not repeat. -/
theorem Sorted.nodup (h : Sorted members) : members.names.Nodup :=
  (sorted_iff_names.mp h).imp ne_of_lt

/-- Members that are taken out of sorted ones are sorted. -/
theorem Sorted.filter (h : Sorted members) (p : String × α → Bool) : Sorted (members.filter p) :=
  List.Pairwise.filter p h

/-- Members stay sorted when their values change. -/
theorem Sorted.map {f : α → β} (h : Sorted members) :
    Sorted (members.map fun entry => (entry.1, f entry.2)) := by
  unfold Sorted
  rw [List.pairwise_map]
  exact h

/-- **Members in order are decided by what they answer.** -/
theorem eq_of_get?_eq {first second : Members α} (h₁ : Sorted first) (h₂ : Sorted second)
    (h : ∀ name, get? first name = get? second name) : first = second := by
  induction first generalizing second with
  | nil =>
    cases second with
    | nil => rfl
    | cons b bs =>
      have := h b.1
      rw [get?_nil, get?_cons, if_pos rfl] at this
      contradiction
  | cons a as ih =>
    cases second with
    | nil =>
      have := h a.1
      rw [get?_nil, get?_cons, if_pos rfl] at this
      contradiction
    | cons b bs =>
      obtain ⟨n, v⟩ := a
      obtain ⟨m, w⟩ := b
      obtain ⟨ha, has⟩ := sorted_cons.mp h₁
      obtain ⟨hb, hbs⟩ := sorted_cons.mp h₂
      have hn : get? as n = none :=
        get?_eq_none_iff.mpr fun e he => (ne_of_lt (ha e he)).symm
      have hm : get? bs m = none :=
        get?_eq_none_iff.mpr fun e he => (ne_of_lt (hb e he)).symm
      -- the smaller of two different first names would be missing on the other side
      have hnm : n = m := by
        rcases lt_trichotomy n m with hlt | heq | hlt
        · have := h n
          rw [get?_cons, if_pos rfl, get?_cons, if_neg (ne_of_lt hlt)] at this
          have hmem := mem_of_get? this.symm
          exact absurd (hb _ hmem) (String.lt_asymm hlt)
        · exact heq
        · have := h m
          rw [get?_cons, if_neg (ne_of_lt hlt), get?_cons, if_pos rfl] at this
          have hmem := mem_of_get? this
          exact absurd (ha _ hmem) (String.lt_asymm hlt)
      subst hnm
      have hvw : v = w := by
        have := h n
        simpa [get?_cons] using this
      have hrest : as = bs := by
        refine ih has hbs fun name => ?_
        by_cases hname : name = n
        · rw [hname, hn, hm]
        · simpa [get?_cons, hname] using h name
      rw [hvw, hrest]

/-! ## Adding a member -/

/-- What is found after a member was added. -/
theorem get?_insert :
    get? (insert name value members) other
      = if other = name then some value else get? members other := by
  induction members with
  | nil => rw [insert, get?_cons]
  | cons entry rest ih =>
    obtain ⟨n, v⟩ := entry
    rw [insert]
    split
    · rw [get?_cons]
    split
    · next hn =>
      subst hn
      rw [get?_cons, get?_cons]
      split <;> rfl
    · next hn =>
      rw [get?_cons, get?_cons, ih]
      by_cases ho : other = name
      · simp [ho, hn]
      · simp [ho]

/-- A member after an insertion is the new one, or was there before. -/
theorem mem_insert {entry : String × α} (h : entry ∈ insert name value members) :
    entry = (name, value) ∨ entry ∈ members := by
  induction members with
  | nil => exact .inl (by simpa [insert] using h)
  | cons first rest ih =>
    obtain ⟨n, v⟩ := first
    rw [insert] at h
    split at h
    · exact List.mem_cons.mp h
    split at h
    · rcases List.mem_cons.mp h with h | h
      · exact .inl h
      · exact .inr (List.mem_cons_of_mem _ h)
    · rcases List.mem_cons.mp h with h | h
      · exact .inr (h ▸ List.mem_cons_self)
      · exact (ih h).imp_right (List.mem_cons_of_mem _)

/-- Adding a member keeps the order. -/
theorem Sorted.insert (h : Sorted members) : Sorted (insert name value members) := by
  induction members with
  | nil => exact List.pairwise_singleton _ _
  | cons entry rest ih =>
    obtain ⟨n, v⟩ := entry
    obtain ⟨hn, hrest⟩ := sorted_cons.mp h
    rw [Members.insert]
    split
    · next hlt =>
      refine sorted_cons.mpr ⟨?_, h⟩
      rintro e he
      rcases List.mem_cons.mp he with rfl | he
      · exact hlt
      · exact String.lt_trans hlt (hn e he)
    split
    · next heq =>
      subst heq
      exact sorted_cons.mpr ⟨hn, hrest⟩
    · next hnlt hne =>
      refine sorted_cons.mpr ⟨fun e he => ?_, ih hrest⟩
      rcases mem_insert he with rfl | he
      · exact lt_of_le_of_ne (not_lt.mp hnlt) (Ne.symm hne)
      · exact hn e he

/-! ## Replacing a member -/

/-- Setting a value leaves the names as they are. -/
@[simp] theorem names_set : (set name value members).names = members.names := by
  induction members with
  | nil => rfl
  | cons entry rest ih =>
    obtain ⟨n, v⟩ := entry
    rw [set]
    split
    · rfl
    · simpa [names] using ih

/-- Replacing a member keeps the order. -/
theorem Sorted.set (h : Sorted members) : Sorted (set name value members) := by
  rw [sorted_iff_names, names_set]
  exact sorted_iff_names.mp h

/-- What is found after a member was replaced. -/
theorem get?_set :
    get? (set name value members) other
      = if other = name then (get? members name).map fun _ => value else get? members other := by
  induction members with
  | nil => simp [set]
  | cons entry rest ih =>
    obtain ⟨n, v⟩ := entry
    rw [set]
    by_cases hn : n = name
    · subst hn
      rw [if_pos rfl, get?_cons, get?_cons]
      by_cases ho : other = n
      · simp [ho]
      · rw [if_neg ho, if_neg ho, get?_cons, if_neg ho]
    · have hname : get? ((n, v) :: rest) name = get? rest name := by
        rw [get?_cons, if_neg (Ne.symm hn)]
      rw [if_neg hn, get?_cons, ih, hname]
      by_cases ho : other = name
      · simp [ho, Ne.symm hn]
      · rw [if_neg ho, if_neg ho, get?_cons]

/-- A member after setting a value has that value, or was there before. -/
theorem mem_set {entry : String × α} (h : entry ∈ set name value members) :
    entry = (name, value) ∨ entry ∈ members := by
  induction members with
  | nil => simp [set] at h
  | cons first rest ih =>
    obtain ⟨n, v⟩ := first
    rw [set] at h
    split at h
    · next hn =>
      subst hn
      rcases List.mem_cons.mp h with h | h
      · exact .inl h
      · exact .inr (List.mem_cons_of_mem _ h)
    · rcases List.mem_cons.mp h with h | h
      · exact .inr (h ▸ List.mem_cons_self)
      · exact (ih h).imp_right (List.mem_cons_of_mem _)

/-- Replacing a member by itself changes nothing. -/
theorem set_of_get? (h : get? members name = some value) : set name value members = members := by
  induction members with
  | nil => rfl
  | cons entry rest ih =>
    obtain ⟨n, v⟩ := entry
    rw [get?_cons] at h
    rw [set]
    by_cases hn : n = name
    · subst hn
      rw [if_pos rfl] at h ⊢
      rw [Option.some.inj h]
    · rw [if_neg (Ne.symm hn)] at h
      rw [if_neg hn, ih h]

/-- A member that is replaced twice has the last value. -/
theorem set_set {new : α} : set name new (set name value members) = set name new members := by
  induction members with
  | nil => rfl
  | cons entry rest ih =>
    obtain ⟨n, v⟩ := entry
    by_cases hn : n = name
    · simp [set, hn]
    · simp [set, hn, ih]

/-- Replacing a member that was added is adding the other value. -/
theorem set_insert {new : α} :
    set name new (insert name value members) = insert name new members := by
  induction members with
  | nil => simp [insert, set]
  | cons entry rest ih =>
    obtain ⟨n, v⟩ := entry
    rw [insert, insert]
    split
    · simp [set]
    split
    · simp [set]
    · next hne => rw [set, if_neg (Ne.symm hne), ih]

/-! ## Members of a list -/

section OfList

variable {entries : List (String × α)}

/-- The members of a list are in order. -/
theorem sorted_ofList : Sorted (ofList entries) := by
  suffices ∀ start : Members α, Sorted start →
      Sorted (entries.foldl (fun members entry => members.insert entry.1 entry.2) start) from
    this [] sorted_nil
  induction entries with
  | nil => exact fun _ h => h
  | cons entry rest ih => exact fun start h => ih _ h.insert

/-- The sorted members come from the list. -/
theorem mem_ofList {entry : String × α} (h : entry ∈ ofList entries) : entry ∈ entries := by
  suffices ∀ start : Members α,
      entry ∈ entries.foldl (fun members entry => members.insert entry.1 entry.2) start →
      entry ∈ start ∨ entry ∈ entries from
    (this [] h).resolve_left List.not_mem_nil
  clear h
  induction entries with
  | nil => exact fun _ h => .inl h
  | cons first rest ih =>
    intro start h
    rcases ih _ h with h | h
    · rcases mem_insert h with rfl | h
      · exact .inr List.mem_cons_self
      · exact .inl h
    · exact .inr (List.mem_cons_of_mem _ h)

/-- Where names do not repeat, the members of a list are those of the list. -/
theorem get?_ofList (h : (entries.map Prod.fst).Nodup) :
    get? (ofList entries) name = get? entries name := by
  suffices ∀ start : Members α,
      get? (entries.foldl (fun members entry => members.insert entry.1 entry.2) start) name
        = (get? entries name).or (get? start name) by
    have := this []
    rwa [get?_nil, Option.or_none] at this
  induction entries with
  | nil => simp
  | cons entry rest ih =>
    obtain ⟨n, v⟩ := entry
    intro start
    obtain ⟨hn, hrest⟩ := List.nodup_cons.mp h
    rw [List.foldl_cons, ih hrest, get?_insert, get?_cons]
    by_cases hname : name = n
    · subst hname
      have : get? rest name = none :=
        get?_eq_none_iff.mpr fun e he heq => hn (List.mem_map.mpr ⟨e, he, heq⟩)
      simp [this]
    · simp [hname]

/-- A list in order is its own members. -/
theorem ofList_of_sorted (h : Sorted entries) : ofList entries = entries :=
  eq_of_get?_eq sorted_ofList h fun _ => get?_ofList h.nodup

/-- Where names do not repeat, all entries are members. -/
theorem mem_ofList_iff (h : (entries.map Prod.fst).Nodup) {entry : String × α} :
    entry ∈ ofList entries ↔ entry ∈ entries := by
  refine ⟨mem_ofList, fun hentry => mem_of_get? (?_ : get? (ofList entries) entry.1 = some entry.2)⟩
  rw [get?_ofList h]
  exact get?_of_mem h hentry

end OfList

/-! ## Changing all values -/

section Map

variable {β : Type} (f : α → β)

/-- A value may be changed before it is inserted or afterwards. -/
theorem insert_map :
    insert name (f value) (members.map fun entry => (entry.1, f entry.2))
      = (insert name value members).map fun entry => (entry.1, f entry.2) := by
  induction members with
  | nil => rfl
  | cons entry rest ih =>
    obtain ⟨n, v⟩ := entry
    rw [List.map_cons, insert, insert]
    split
    · rfl
    split
    · rfl
    · rw [List.map_cons, ih]

/-- Values may be changed before the members are sorted or afterwards. -/
theorem ofList_map (entries : List (String × α)) :
    ofList (entries.map fun entry => (entry.1, f entry.2))
      = (ofList entries).map fun entry => (entry.1, f entry.2) := by
  suffices ∀ start : Members α,
      (entries.map fun entry => (entry.1, f entry.2)).foldl
          (fun members entry => insert entry.1 entry.2 members)
          (start.map fun entry => (entry.1, f entry.2))
        = (entries.foldl (fun members entry => insert entry.1 entry.2 members) start).map
            fun entry => (entry.1, f entry.2) from
    this []
  induction entries with
  | nil => exact fun _ => rfl
  | cons entry rest ih =>
    intro start
    rw [List.map_cons, List.foldl_cons, List.foldl_cons]
    dsimp only
    rw [insert_map f, ih]

/-- What is found among changed values is the changed value. -/
theorem get?_map :
    get? (members.map fun entry => (entry.1, f entry.2)) name = (get? members name).map f := by
  induction members with
  | nil => rfl
  | cons entry rest ih =>
    obtain ⟨n, v⟩ := entry
    rw [List.map_cons, get?_cons, get?_cons, ih]
    split <;> rfl

end Map

end Hypermark.Members
