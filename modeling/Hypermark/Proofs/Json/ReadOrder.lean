import Hypermark.Json.Reader
import Hypermark.Proofs.Json.Parts
import Hypermark.Outcome

/-!
# What is read is in order

A property that holds of what is read without arrays and objects, and that arrays and objects have
when they are made step by step, holds of everything that is read (`KeptByReader.readValue`).

Whatever the text, a value that is read has the names of every object in order
(`ordered_of_readValue`): the reader puts each member at its place.
-/

namespace Hypermark.Json

/-- A word gives its value. -/
theorem eq_of_readWord {α : Type} {text word rest : List Char} {value read : α}
    (h : readWord value word text = .ok (read, rest)) : read = value := by
  induction word generalizing text with
  | nil =>
    rw [readWord] at h
    cases h
    rfl
  | cons w ws ih =>
    cases text with
    | nil => cases h
    | cons c cs =>
      rw [readWord] at h
      split at h
      · exact ih h
      · cases h

/-- The steps of the reader keep a property of a value and of the number of arrays and objects that
may open where the value is read. -/
structure KeptByReader (p : Nat → Json → Prop) : Prop where
  null {depth : Nat} : p depth null
  bool {depth : Nat} {value : Bool} : p depth (bool value)
  num {depth : Nat} {negative : Bool} {value : JsonNumber} {text rest : List Char}
    (h : readNumber negative text = .ok (value, rest)) : p depth (num value)
  str {depth : Nat} {value : String} : p depth (str value)
  arr {depth : Nat} {items : List Json} (h : ∀ item ∈ items, p depth item) :
    p (depth + 1) (arr items)
  empty {depth : Nat} : p (depth + 1) (obj [])
  insert {depth : Nat} {members : Members Json} {name : String} {value : Json}
    (h : p (depth + 1) (obj members)) (hvalue : p depth value) :
    p (depth + 1) (obj (members.insert name value))

/-- What the reader makes has the property, if what it has made so far does; by induction on its
fuel. -/
theorem KeptByReader.read_with {p : Nat → Json → Prop} (hp : KeptByReader p) (fuel : Nat) :
    (∀ {depth text value rest}, readValueWith fuel depth text = .ok (value, rest) →
      p depth value) ∧
    (∀ {depth first read text value rest}, (∀ item ∈ read, p depth item) →
      readItemsWith fuel depth first read text = .ok (value, rest) → p (depth + 1) value) ∧
    (∀ {depth first read text value rest}, p (depth + 1) (obj read) →
      readMembersWith fuel depth first read text = .ok (value, rest) → p (depth + 1) value) := by
  -- Each of the three readers calls the others with one step less, so they are taken at once.
  induction fuel with
  | zero =>
    refine ⟨?_, ?_, ?_⟩
    · intro depth text value rest h
      cases h
    · intro depth first read text value rest _ h
      cases h
    · intro depth first read text value rest _ h
      cases h
  | succ fuel ih =>
    obtain ⟨ihValue, ihItems, ihMembers⟩ := ih
    refine ⟨?_, ?_, ?_⟩
    · intro depth text value rest h
      rw [readValueWith] at h
      split at h
      · cases h
      · exact eq_of_readWord h ▸ hp.null
      · exact eq_of_readWord h ▸ hp.bool
      · exact eq_of_readWord h ▸ hp.bool
      · obtain ⟨_, hnumber, h⟩ := bind_eq_ok_iff.mp h
        cases h
        exact hp.num hnumber
      · obtain ⟨_, _, h⟩ := bind_eq_ok_iff.mp h
        cases h
        exact hp.str
      · split at h
        · cases h
        · exact ihItems (by simp) h
      · split at h
        · cases h
        · exact ihMembers hp.empty h
      · split at h
        · obtain ⟨_, hnumber, h⟩ := bind_eq_ok_iff.mp h
          cases h
          exact hp.num hnumber
        · cases h
    · intro depth first read text value rest hread h
      rw [readItemsWith] at h
      obtain ⟨start, _, h⟩ := bind_eq_ok_iff.mp h
      cases start with
      | none =>
        cases h
        exact hp.arr fun item hitem => hread item (List.mem_reverse.mp hitem)
      | some text =>
        obtain ⟨⟨item, rest'⟩, hitem, h⟩ := bind_eq_ok_iff.mp h
        exact ihItems (List.forall_mem_cons.mpr ⟨ihValue hitem, hread⟩) h
    · intro depth first read text value rest hread h
      rw [readMembersWith] at h
      obtain ⟨start, _, h⟩ := bind_eq_ok_iff.mp h
      cases start with
      | none =>
        cases h
        exact hread
      | some text =>
        obtain ⟨⟨name, rest₁⟩, _, h⟩ := bind_eq_ok_iff.mp h
        obtain ⟨rest₂, _, h⟩ := bind_eq_ok_iff.mp h
        obtain ⟨⟨item, rest₃⟩, hitem, h⟩ := bind_eq_ok_iff.mp h
        exact ihMembers (hp.insert hread (ihValue hitem)) h

/-- **What the steps of the reader keep holds of every value that is read.** -/
theorem KeptByReader.readValue {p : Nat → Json → Prop} (hp : KeptByReader p)
    {text rest : List Char} {value : Json} (h : readValue text = .ok (value, rest)) :
    p maxNesting value :=
  (hp.read_with _).1 h

/-- The steps of the reader make ordered values. -/
theorem keptByReader_ordered : KeptByReader fun _ => Ordered where
  null := ordered_null
  bool := ordered_bool
  num _ := ordered_num
  str := ordered_str
  arr := ordered_arr.mpr
  empty := ordered_obj.mpr ⟨Members.sorted_nil, by simp⟩
  insert h hvalue := by
    obtain ⟨hsorted, hvalues⟩ := ordered_obj.mp h
    refine ordered_obj.mpr ⟨hsorted.insert, fun entry hentry => ?_⟩
    rcases Members.mem_insert hentry with rfl | hentry
    · exact hvalue
    · exact hvalues entry hentry

/-- **A value that is read is ordered.** -/
theorem ordered_of_readValue {text rest : List Char} {value : Json}
    (h : Json.readValue text = .ok (value, rest)) : value.Ordered :=
  keptByReader_ordered.readValue h

end Hypermark.Json
