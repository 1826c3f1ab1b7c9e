import Hypermark.Hast.Decoder
import Hypermark.Hast.Encoder
import Hypermark.Proofs.Json.Parts
import Hypermark.Outcome

/-!
# Positions in JSON

A position whose numbers fit into 64 bits (`Position.Fits`) is read back from its value, and every
position that is read fits.
-/

namespace Hypermark

/-! ## Numbers -/

/-- A natural number of 64 bits is read as itself. -/
theorem Json.toSize_nat {n : Nat} (h : (n : Int) ≤ maxSize) : (nat n).toSize = .ok n := by
  have hn : 0 ≤ (n : Int) ∧ (n : Int) ≤ maxSize := ⟨Int.natCast_nonneg n, h⟩
  simp only [nat, toSize, if_pos hn, Int.toNat_natCast]

/-- A size that is read has 64 bits. -/
theorem Json.le_maxSize_of_toSize {value : Json} {n : Nat} (h : value.toSize = .ok n) :
    (n : Int) ≤ maxSize := by
  unfold toSize at h
  split at h
  · split at h
    · next hvalue =>
      cases h
      rw [Int.toNat_of_nonneg hvalue.1]
      exact hvalue.2
    · cases h
  · cases h

/-- So has one that may be missing. -/
theorem Json.le_maxSize_of_toOptionalSize {value : Json} {size : Option Nat}
    (h : value.toOptionalSize = .ok size) : ∀ n ∈ size, (n : Int) ≤ maxSize := by
  intro n hn
  unfold toOptionalSize at h
  split at h
  · cases h
    cases hn
  · obtain ⟨m, hm, rfl⟩ := map_eq_ok_iff.mp h
    cases hn
    exact le_maxSize_of_toSize hm

/-- A natural number that is a word has 64 bits. -/
theorem Json.le_maxSize_of_words {n : Nat} (h : (nat n).Words) : (n : Int) ≤ maxSize := by
  have hword := (everywhere_iff.mp h).1
  simp only [nat, NumberIsWord, JsonNumber.isWord, Bool.and_eq_true, decide_eq_true_eq] at hword
  rw [maxSize]
  omega

/-! ## Points -/

namespace Point

/-- The numbers of a point fit into 64 bits. -/
structure Fits (point : Point) : Prop where
  line : (point.line : Int) ≤ maxSize
  column : (point.column : Int) ≤ maxSize
  offset : ∀ offset ∈ point.offset, (offset : Int) ≤ maxSize

/-- The numbers read so far fit into 64 bits. -/
structure Draft.Fits (read : Draft) : Prop where
  line : ∀ line ∈ read.line, (line : Int) ≤ maxSize
  column : ∀ column ∈ read.column, (column : Int) ≤ maxSize
  offset : ∀ offset ∈ read.offset, (offset : Int) ≤ maxSize

/-- What is read from the members of a point fits if what was read before does. -/
theorem fits_of_readMembers {members : List (String × Json)} {read draft : Draft}
    (hread : read.Fits) (h : readMembers read members = .ok draft) : draft.Fits := by
  induction members generalizing read with
  | nil =>
    rw [readMembers] at h
    cases h
    exact hread
  | cons entry rest ih =>
    obtain ⟨name, value⟩ := entry
    rw [readMembers] at h
    split at h
    · obtain ⟨line, hline, h⟩ := bind_eq_ok_iff.mp h
      have hline : ∀ n ∈ some line, (n : Int) ≤ maxSize := by
        rintro _ ⟨⟩
        exact Json.le_maxSize_of_toSize hline
      have hnew : Draft.Fits { read with line := some line } := ⟨hline, hread.column, hread.offset⟩
      exact ih hnew h
    split at h
    · obtain ⟨column, hcolumn, h⟩ := bind_eq_ok_iff.mp h
      have hcolumn : ∀ n ∈ some column, (n : Int) ≤ maxSize := by
        rintro _ ⟨⟩
        exact Json.le_maxSize_of_toSize hcolumn
      have hnew : Draft.Fits { read with column := some column } :=
        ⟨hread.line, hcolumn, hread.offset⟩
      exact ih hnew h
    split at h
    · obtain ⟨offset, hoffset, h⟩ := bind_eq_ok_iff.mp h
      have hnew : Draft.Fits { read with offset := offset } :=
        ⟨hread.line, hread.column, Json.le_maxSize_of_toOptionalSize hoffset⟩
      exact ih hnew h
    · exact ih hread h

/-- A point that is read fits. -/
theorem fits_of_ofJson {value : Json} {point : Point} (h : ofJson value = .ok point) :
    point.Fits := by
  unfold ofJson at h
  split at h
  · obtain ⟨read, hread, h⟩ := bind_eq_ok_iff.mp h
    have hfits : read.Fits := fits_of_readMembers ⟨by simp, by simp, by simp⟩ hread
    split at h
    · next line column hline hcolumn =>
      cases h
      exact ⟨hfits.line line hline, hfits.column column hcolumn, hfits.offset⟩
    · cases h
    · cases h
  · cases h
  · obtain ⟨_, _, h⟩ := bind_eq_ok_iff.mp h
    cases h
  · obtain ⟨line, hline, h⟩ := bind_eq_ok_iff.mp h
    obtain ⟨column, hcolumn, h⟩ := bind_eq_ok_iff.mp h
    cases h
    exact ⟨Json.le_maxSize_of_toSize hline, Json.le_maxSize_of_toSize hcolumn, by simp⟩
  · obtain ⟨line, hline, h⟩ := bind_eq_ok_iff.mp h
    obtain ⟨column, hcolumn, h⟩ := bind_eq_ok_iff.mp h
    obtain ⟨offset, hoffset, h⟩ := bind_eq_ok_iff.mp h
    split at h
    · cases h
      exact ⟨Json.le_maxSize_of_toSize hline, Json.le_maxSize_of_toSize hcolumn,
        Json.le_maxSize_of_toOptionalSize hoffset⟩
    · cases h
  · cases h

/-- The members of a point in order. -/
theorem ofList_members (point : Point) :
    Members.ofList point.members = ("column", Json.nat point.column)
      :: ("line", Json.nat point.line)
      :: (point.offset.map fun offset => ("offset", Json.nat offset)).toList := by
  have h₁ : "column" < "line" := by decide
  have h₂ : ¬ "offset" < "column" := by decide
  have h₃ : ¬ "offset" < "line" := by decide
  obtain ⟨line, column, offset⟩ := point
  cases offset <;> simp [members, Members.ofList, Members.insert, h₁, h₂, h₃, -String.lt_iff_ltb]

/-- A point that fits is read back. -/
theorem ofJson_members {point : Point} (h : point.Fits) :
    ofJson (.obj (Members.ofList point.members)) = .ok point := by
  obtain ⟨line, column, offset⟩ := point
  rw [ofList_members]
  cases offset with
  | none =>
    simp [ofJson, readMembers, Json.toSize_nat h.line, Json.toSize_nat h.column, bind, Except.bind]
  | some offset =>
    have hoffset : (Json.nat offset).toOptionalSize = .ok (some offset) := by
      have : (Json.nat offset).toSize = .ok offset := Json.toSize_nat (h.offset offset rfl)
      rw [Json.toOptionalSize, this]
      · rfl
      · simp [Json.nat]
    simp [ofJson, readMembers, Json.toSize_nat h.line, Json.toSize_nat h.column, hoffset, bind,
      Except.bind]

/-- The value of a point is in order. -/
theorem ordered_members (point : Point) : (Json.obj (Members.ofList point.members)).Ordered := by
  refine Json.ordered_obj.mpr ⟨Members.sorted_ofList, fun entry hentry => ?_⟩
  have := Members.mem_ofList hentry
  obtain ⟨line, column, offset⟩ := point
  cases offset <;> simp only [members, Option.map_none, Option.map_some, Option.toList_none,
    Option.toList_some, List.append_nil, List.cons_append, List.nil_append, List.mem_cons,
    List.not_mem_nil, or_false] at this
  · rcases this with rfl | rfl <;> exact Json.ordered_num
  · rcases this with rfl | rfl | rfl <;> exact Json.ordered_num

end Point

/-! ## Positions -/

namespace Position

/-- The numbers of a position fit into 64 bits. -/
structure Fits (position : Position) : Prop where
  start : position.start.Fits
  stop : position.stop.Fits

/-- The points read so far fit. -/
structure Draft.Fits (read : Draft) : Prop where
  start : ∀ point ∈ read.start, point.Fits
  stop : ∀ point ∈ read.stop, point.Fits

/-- What is read from the members of a position fits if what was read before does. -/
theorem fits_of_readMembers {members : List (String × Json)} {read draft : Draft}
    (hread : read.Fits) (h : readMembers read members = .ok draft) : draft.Fits := by
  induction members generalizing read with
  | nil =>
    rw [readMembers] at h
    cases h
    exact hread
  | cons entry rest ih =>
    obtain ⟨name, value⟩ := entry
    rw [readMembers] at h
    split at h
    · obtain ⟨start, hstart, h⟩ := bind_eq_ok_iff.mp h
      have hstart : ∀ point ∈ some start, point.Fits := by
        rintro _ ⟨⟩
        exact Point.fits_of_ofJson hstart
      have hnew : Draft.Fits { read with start := some start } := ⟨hstart, hread.stop⟩
      exact ih hnew h
    split at h
    · obtain ⟨stop, hstop, h⟩ := bind_eq_ok_iff.mp h
      have hstop : ∀ point ∈ some stop, point.Fits := by
        rintro _ ⟨⟩
        exact Point.fits_of_ofJson hstop
      have hnew : Draft.Fits { read with stop := some stop } := ⟨hread.start, hstop⟩
      exact ih hnew h
    · exact ih hread h

/-- A position that is read fits. -/
theorem fits_of_ofJson {value : Json} {position : Position} (h : ofJson value = .ok position) :
    position.Fits := by
  unfold ofJson at h
  split at h
  · obtain ⟨read, hread, h⟩ := bind_eq_ok_iff.mp h
    have hfits : read.Fits := fits_of_readMembers ⟨by simp, by simp⟩ hread
    split at h
    · next start stop hstart hstop =>
      cases h
      exact ⟨hfits.start start hstart, hfits.stop stop hstop⟩
    · cases h
    · cases h
  · cases h
  · obtain ⟨_, _, h⟩ := bind_eq_ok_iff.mp h
    cases h
  · obtain ⟨start, hstart, h⟩ := bind_eq_ok_iff.mp h
    obtain ⟨stop, hstop, h⟩ := bind_eq_ok_iff.mp h
    split at h
    · cases h
      exact ⟨Point.fits_of_ofJson hstart, Point.fits_of_ofJson hstop⟩
    · cases h
  · cases h

/-- A position that is read fits. -/
theorem fits_of_ofOptionalJson {value : Json} {position : Option Position}
    (h : ofOptionalJson value = .ok position) : ∀ p ∈ position, p.Fits := by
  intro p hp
  unfold ofOptionalJson at h
  split at h
  · cases h
    cases hp
  · obtain ⟨q, hq, rfl⟩ := map_eq_ok_iff.mp h
    cases hp
    exact fits_of_ofJson hq

/-- The value of a position, with its members in order. -/
theorem toJson_eq (position : Position) :
    position.toJson = .obj [("end", .obj (Members.ofList position.stop.members)),
      ("start", .obj (Members.ofList position.start.members))] := by
  have h : "end" < "start" := by decide
  simp [toJson, Members.ofList, Members.insert, h, -String.lt_iff_ltb]

/-- A position that fits is read back. -/
theorem ofOptionalJson_toJson {position : Position} (h : position.Fits) :
    ofOptionalJson position.toJson = .ok (some position) := by
  rw [toJson_eq, ofOptionalJson]
  · simp [ofJson, readMembers, Point.ofJson_members h.start, Point.ofJson_members h.stop, bind,
      Except.bind, Except.map]
  · simp

/-- The value of a position is in order. -/
theorem ordered_toJson (position : Position) : position.toJson.Ordered := by
  rw [toJson_eq]
  refine Json.ordered_obj.mpr ⟨?_, fun entry hentry => ?_⟩
  · have h : "end" < "start" := by decide
    simp [Members.sorted_cons, Members.sorted_nil, h, -String.lt_iff_ltb]
  · rcases List.mem_pair.mp hentry with rfl | rfl
    · exact position.stop.ordered_members
    · exact position.start.ordered_members

/-- The value of a position is what is written, with its members in order. -/
theorem sorted_written (position : Position) : position.written.sorted = position.toJson := by
  have hmembers (point : Point) :
      point.members.map (fun entry => (entry.1, entry.2.sorted)) = point.members := by
    obtain ⟨line, column, offset⟩ := point
    cases offset <;> simp [Point.members, Json.nat, Json.sorted]
  simp [written, toJson, Json.sorted, hmembers]

/-- A position whose numbers are integers of 64 bits fits. -/
theorem fits_of_words {position : Position} (h : position.written.Words) : position.Fits := by
  have hpoint {point : Point} (hp : (Json.obj point.members).Words) : point.Fits := by
    have hmembers := Json.words_obj.mp hp
    refine ⟨?_, ?_, fun offset hoffset => ?_⟩
    · exact Json.le_maxSize_of_words (hmembers ("line", .nat point.line) (by simp [Point.members]))
    · exact Json.le_maxSize_of_words
        (hmembers ("column", .nat point.column) (by simp [Point.members]))
    · refine Json.le_maxSize_of_words (hmembers ("offset", .nat offset) ?_)
      obtain ⟨line, column, _⟩ := point
      cases hoffset
      simp [Point.members]
  have hmembers := Json.words_obj.mp h
  refine ⟨hpoint (hmembers ("start", _) ?_), hpoint (hmembers ("end", _) ?_)⟩
  · exact List.mem_cons_self
  · exact List.mem_cons_of_mem _ List.mem_cons_self

end Position

end Hypermark
