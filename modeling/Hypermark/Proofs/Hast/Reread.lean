import Hypermark.Proofs.Hast.Codec
import Hypermark.Proofs.Hast.Grammar
import Hypermark.Proofs.Json.ReadDepth

/-!
# Reading the text of a tree again

The grammar of trees asks for strings, arrays, objects and integers, and all of these are read again
as they are; numbers that may change are only found where nothing is asked (`IsNode.reread`).  So
the text of a tree is refused for its nesting or not at all (`exists_read_print_iff`).
-/

namespace Hypermark

namespace Json

/-- `null` is read again as itself. -/
theorem reread_null : null.reread = null := by
  simp only [reread]

/-- The items of an array are read again one by one. -/
theorem reread_arr (items : List Json) : (arr items).reread = arr (items.map reread) := by
  rw [reread, rereadItems_eq_map]

/-- So are the members of an object, under the same names. -/
theorem reread_obj (members : List (String × Json)) :
    (obj members).reread = obj (members.map fun entry => (entry.1, entry.2.reread)) := by
  rw [reread, rereadMembers_eq_map]

/-- A string is read again as itself, and nothing else becomes one. -/
theorem reread_eq_str_iff {value : Json} {text : String} :
    value.reread = .str text ↔ value = .str text := by
  cases value <;> simp [reread]

/-- A member that is a string is read again as that string. -/
theorem get?_reread_eq_str_iff {value : Json} {name text : String} :
    value.reread.get? name = some (.str text) ↔ value.get? name = some (.str text) := by
  rw [get?_reread, Option.map_eq_some_iff]
  simp only [reread_eq_str_iff, exists_eq_right]

/-! ## The grammar -/

/-- A size is read again as itself. -/
theorem IsSize.reread_eq {value : Json} (h : value.IsSize) : value.reread = value := by
  obtain ⟨n, _, _, rfl⟩ := h
  rw [reread, JsonNumber.reread]

/-- So it is a size again. -/
theorem IsSize.reread {value : Json} (h : value.IsSize) : value.reread.IsSize := by
  rwa [h.reread_eq]

/-- A point is a point again. -/
theorem IsPoint.reread {value : Json} (h : value.IsPoint) : value.reread.IsPoint := by
  have hoptional {offset : Json} (h : offset = .null ∨ offset.IsSize) :
      offset.reread = .null ∨ offset.reread.IsSize := by
    rcases h with rfl | h
    · exact .inl reread_null
    · exact .inr h.reread
  cases h with
  | object hline line_isSize hcolumn column_isSize hoffset =>
    rw [reread_obj]
    refine .object (Members.get?_map Json.reread |>.trans (congrArg _ hline)) line_isSize.reread
      (Members.get?_map Json.reread |>.trans (congrArg _ hcolumn)) column_isSize.reread
      fun offset hget => ?_
    rw [Members.get?_map, Option.map_eq_some_iff] at hget
    obtain ⟨offset, hget, rfl⟩ := hget
    exact hoptional (hoffset offset hget)
  | pair hline hcolumn =>
    rw [reread_arr]
    exact .pair hline.reread hcolumn.reread
  | triple hline hcolumn hoffset =>
    rw [reread_arr]
    exact .triple hline.reread hcolumn.reread (hoptional hoffset)

/-- A position is a position again. -/
theorem IsPosition.reread {value : Json} (h : value.IsPosition) : value.reread.IsPosition := by
  cases h with
  | object hstart start_isPoint hstop stop_isPoint =>
    rw [reread_obj]
    exact .object (Members.get?_map Json.reread |>.trans (congrArg _ hstart)) start_isPoint.reread
      (Members.get?_map Json.reread |>.trans (congrArg _ hstop)) stop_isPoint.reread
  | pair hstart hstop =>
    rw [reread_arr]
    exact .pair hstart.reread hstop.reread

/-- Where there was a position or none there is again. -/
theorem HasPosition.reread {value : Json} (h : value.HasPosition) : value.reread.HasPosition := by
  intro position hget
  rw [get?_reread, Option.map_eq_some_iff] at hget
  obtain ⟨position, hget, rfl⟩ := hget
  rcases h position hget with rfl | hposition
  · exact .inl reread_null
  · exact .inr hposition.reread

/-- The member is an array, if there is one. -/
def IsArrayAt (name : String) (value : Json) : Prop :=
  ∀ member, value.get? name = some member → ∃ items, member = .arr items

/-- A member that was an array is one again. -/
theorem IsArrayAt.reread {name : String} {value : Json} (h : value.IsArrayAt name) :
    value.reread.IsArrayAt name := by
  intro member hget
  rw [get?_reread, Option.map_eq_some_iff] at hget
  obtain ⟨member, hget, rfl⟩ := hget
  obtain ⟨items, rfl⟩ := h member hget
  exact ⟨_, reread_arr items⟩

/-- The items of the array are those that are read again. -/
theorem IsArrayAt.exists_of_reread {name : String} {value : Json} {items : List Json}
    (h : value.IsArrayAt name) (hget : value.reread.get? name = some (.arr items)) :
    ∃ found, value.get? name = some (.arr found) ∧ items = found.map Json.reread := by
  rw [get?_reread, Option.map_eq_some_iff] at hget
  obtain ⟨member, hget, heq⟩ := hget
  obtain ⟨found, rfl⟩ := h member hget
  rw [reread_arr] at heq
  cases heq
  exact ⟨found, hget, rfl⟩

/-- **A tree that is read again is a tree.** -/
theorem IsNode.reread {value : Json} (h : value.IsNode) : value.reread.IsNode := by
  have hitems {value : Json} (harray : value.IsArrayAt "children")
      (ih : ∀ items, value.get? "children" = some (.arr items) →
        ∀ item ∈ items, item.reread.IsNode) :
      ∀ items, value.reread.get? "children" = some (.arr items) → ∀ item ∈ items, item.IsNode := by
    intro items hget
    obtain ⟨found, hfound, rfl⟩ := harray.exists_of_reread hget
    exact List.forall_mem_map.mpr (ih found hfound)
  induction h with
  | kept htype => exact .kept fun name hname => mt get?_reread_eq_str_iff.mp (htype name hname)
  | root htype harray _ hposition ih =>
    exact .root (get?_reread_eq_str_iff.mpr htype) (IsArrayAt.reread harray) (hitems harray ih)
      hposition.reread
  | element htype harray _ hposition htagName hproperties ih =>
    obtain ⟨tagName, htagName⟩ := htagName
    refine .element (get?_reread_eq_str_iff.mpr htype) (IsArrayAt.reread harray) (hitems harray ih)
      hposition.reread ⟨tagName, get?_reread_eq_str_iff.mpr htagName⟩ fun properties hget => ?_
    rw [get?_reread, Option.map_eq_some_iff] at hget
    obtain ⟨properties, hget, rfl⟩ := hget
    obtain ⟨members, rfl⟩ := hproperties properties hget
    exact ⟨_, reread_obj members⟩
  | leaf hname htype hvalue hposition =>
    obtain ⟨text, hvalue⟩ := hvalue
    exact .leaf hname (get?_reread_eq_str_iff.mpr htype) ⟨text, get?_reread_eq_str_iff.mpr hvalue⟩
      hposition.reread

end Json

/-! ## The text of a tree -/

namespace Hast.Node

/-- A tree that is read comes from a value in order that fits. -/
theorem exists_of_read {source : String} {node : Node} (h : read source = .ok node) :
    ∃ value : Json, value.Ordered ∧ value.Fits Json.maxNesting ∧ ofJson value = .ok node := by
  rw [read] at h
  obtain ⟨⟨value, rest⟩, hvalue, h⟩ := bind_eq_ok_iff.mp h
  obtain ⟨found, hfound, h⟩ := bind_eq_ok_iff.mp h
  obtain ⟨_, _, h⟩ := bind_eq_ok_iff.mp h
  cases h
  rw [mapError_eq_ok_iff] at hvalue hfound
  exact ⟨value, Json.ordered_of_readValue hvalue, Json.fits_of_readValue hvalue, hfound⟩

/-- What is written for a tree fits if its value does. -/
theorem fits_written {node : Node} (h : node.Canonical) {depth : Nat} :
    node.toJson.Fits depth → node.written.Fits depth := by
  rw [← sorted_written h]
  exact Json.fits_of_sorted (distinct_written h)

/-- **The text of a tree is refused for its nesting or not at all.** -/
theorem exists_read_print_iff {node : Node} (h : node.Canonical) (hplaced : node.Placed)
    (hheld : node.toJson.Held) :
    (∃ again, read node.print = .ok again) ↔ node.toJson.nesting ≤ Json.maxNesting := by
  constructor
  · rintro ⟨again, hagain⟩
    rw [read] at hagain
    obtain ⟨_, hvalue, _⟩ := bind_eq_ok_iff.mp hagain
    rw [mapError_eq_ok_iff] at hvalue
    rw [← sorted_written h]
    exact Json.nesting_le_of_readValue_print (fits_written h ⟨le_rfl, hheld⟩).held hvalue
  · intro hnesting
    have hvalue : Json.readValue node.print.toList = .ok (node.toJson.reread, []) := by
      rw [print, Json.readValue_print_of_fits (fits_written h ⟨hnesting, hheld⟩),
        Json.sorted_reread, sorted_written h]
    -- Its numbers may come back changed, but the grammar does not ask for those.
    have hordered := ordered_toJson h
    have hnode := (exists_ofJson_iff hordered).mp ⟨node, ofJson_toJson h hplaced⟩
    obtain ⟨again, hagain⟩ := (exists_ofJson_iff hordered.reread).mpr hnode.reread
    exact ⟨again, read_of_readValue hvalue hagain⟩

end Hast.Node

end Hypermark
