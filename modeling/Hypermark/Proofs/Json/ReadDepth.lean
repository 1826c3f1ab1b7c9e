import Hypermark.Proofs.Json.ReadBack
import Hypermark.Proofs.Json.ReadOrder

/-!
# How deep the reader goes

A value that is read fits (`fits_of_readValue`): it is nested no deeper than arrays and objects may
open, and its numbers are held.  The depth does nothing else: with more of it the same is read
(`read_with_of_le`), so a printed value that is nested too deep is not read at all
(`nesting_le_of_readValue_print`).
-/

namespace Hypermark.Json

/-- The steps of the reader make values that fit. -/
theorem keptByReader_fits : KeptByReader Fits where
  null := fits_null
  bool := fits_bool
  num h := fits_num.mpr (held_of_readNumber h)
  str := fits_str
  arr := fits_arr.mpr
  empty := fits_obj.mpr (by simp)
  insert h hvalue := by
    refine fits_obj.mpr fun entry hentry => ?_
    rcases Members.mem_insert hentry with rfl | hentry
    · exact hvalue
    · exact fits_obj.mp h entry hentry

/-- **A value that is read fits.** -/
theorem fits_of_readValue {text rest : List Char} {value : Json}
    (h : readValue text = .ok (value, rest)) : value.Fits maxNesting :=
  keptByReader_fits.readValue h

/-- With more depth the same is read; by induction on the fuel. -/
theorem read_with_of_le (fuel : Nat) :
    (∀ {depth more text read}, depth ≤ more → readValueWith fuel depth text = .ok read →
      readValueWith fuel more text = .ok read) ∧
    (∀ {depth more first items text read}, depth ≤ more →
      readItemsWith fuel depth first items text = .ok read →
      readItemsWith fuel more first items text = .ok read) ∧
    (∀ {depth more first members text read}, depth ≤ more →
      readMembersWith fuel depth first members text = .ok read →
      readMembersWith fuel more first members text = .ok read) := by
  induction fuel with
  | zero =>
    refine ⟨?_, ?_, ?_⟩
    · intro depth more text read _ h
      cases h
    · intro depth more first items text read _ h
      cases h
    · intro depth more first members text read _ h
      cases h
  | succ fuel ih =>
    obtain ⟨ihValue, ihItems, ihMembers⟩ := ih
    refine ⟨?_, ?_, ?_⟩
    · intro depth more text read hle h
      rw [readValueWith] at h ⊢
      split at h
      · cases h
      · exact h
      · exact h
      · exact h
      · exact h
      · exact h
      · split at h
        · cases h
        · -- Where an array may open with less room it may with more.
          obtain ⟨more, rfl⟩ : ∃ n, more = n + 1 := ⟨more - 1, by omega⟩
          exact ihItems (Nat.le_of_succ_le_succ hle) h
      · split at h
        · cases h
        · obtain ⟨more, rfl⟩ : ∃ n, more = n + 1 := ⟨more - 1, by omega⟩
          exact ihMembers (Nat.le_of_succ_le_succ hle) h
      · exact h
    · intro depth more first items text read hle h
      rw [readItemsWith] at h ⊢
      obtain ⟨start, hstart, h⟩ := bind_eq_ok_iff.mp h
      rw [hstart]
      cases start with
      | none => exact h
      | some text =>
        obtain ⟨⟨item, rest⟩, hitem, h⟩ := bind_eq_ok_iff.mp h
        exact bind_eq_ok_iff.mpr ⟨_, rfl,
          bind_eq_ok_iff.mpr ⟨_, ihValue hle hitem, ihItems hle h⟩⟩
    · intro depth more first members text read hle h
      rw [readMembersWith] at h ⊢
      obtain ⟨start, hstart, h⟩ := bind_eq_ok_iff.mp h
      rw [hstart]
      cases start with
      | none => exact h
      | some text =>
        obtain ⟨⟨name, rest₁⟩, hname, h⟩ := bind_eq_ok_iff.mp h
        obtain ⟨rest₂, hcolon, h⟩ := bind_eq_ok_iff.mp h
        obtain ⟨⟨item, rest₃⟩, hitem, h⟩ := bind_eq_ok_iff.mp h
        exact bind_eq_ok_iff.mpr ⟨_, rfl, bind_eq_ok_iff.mpr ⟨_, hname,
          bind_eq_ok_iff.mpr ⟨_, hcolon, bind_eq_ok_iff.mpr ⟨_, ihValue hle hitem,
            ihMembers hle h⟩⟩⟩⟩

/-- **A printed value that is read is nested no deeper than the reader goes**, its members in order.
-/
theorem nesting_le_of_readValue_print {value read : Json} {rest : List Char} (h : value.Held)
    (hread : readValue value.print.toList = .ok (read, rest)) :
    value.sorted.nesting ≤ maxNesting := by
  -- Where the reader may go deep enough it reads the value back, so it reads the same here.
  have hfits : value.Fits (max value.nesting maxNesting) := ⟨le_max_left _ _, h⟩
  have hback := readsBack_print hfits (2 * value.print.toList.length + 2) [] (by omega)
    delimited_nil
  rw [List.append_nil, (read_with_of_le _).1 (le_max_right _ _) hread] at hback
  cases hback
  have := (fits_of_readValue hread).nesting_le
  rwa [sorted_reread, nesting_reread] at this

end Hypermark.Json
