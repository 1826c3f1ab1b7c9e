import Hypermark.Proofs.Conversion.Canonical
import Hypermark.Proofs.Diagram.Values
import Hypermark.Proofs.Hast.Reread

/-!
# Trees that a program builds

A program starts from a tree that it reads or converts and changes it at one place after the other
(`Built`).  Every change keeps the tree canonical (`Built.canonical`), so a tree that is built so
can be written and read again (`Node.read_print`).
-/

namespace Hypermark.Hast

/-- The changes that put in nodes that were read, and values of properties that are made from
strings, truth values and natural numbers. -/
inductive Edit.Plain : Edit → Prop
  | markDiagrams (language : String) : Plain (.markDiagrams language)
  | replace {node : Node} (h : node.Decoded) : Plain (.replace node)
  | push {child : Node} (h : child.Decoded) : Plain (.push child)
  | remove (index : Nat) : Plain (.remove index)
  | setString (name value : String) : Plain (.setProperty name (.string value))
  | setBool (name : String) (value : Bool) : Plain (.setProperty name (.bool value))
  | setNumber (name : String) (value : Nat) : Plain (.setProperty name (.number (.int value)))
  | setClasses (names : List String) : Plain (.setClasses names)

/-- The tree is read from a text or converted from Markdown, and changed at any places after that.
-/
inductive Built : Node → Prop
  | read {source : String} {tree : Node} (h : Node.read source = .ok tree) : Built tree
  | converted (options : ConversionOptions) (tree : Mdast.Node) : Built (tree.toHast options).value
  | edited {tree new : Node} {change : Edit} {path : List Nat} (h : Built tree)
    (hplain : change.Plain) (hedit : tree.edit change path = .ok new) : Built new

namespace Node

/-- A tree that is read from a text is canonical. -/
theorem canonical_of_read {source : String} {tree : Node} (h : read source = .ok tree) :
    tree.Canonical := by
  obtain ⟨value, hvalue, _, hnode⟩ := exists_of_read h
  exact canonical_of_ofJson hvalue hnode

/-- A property with a value that would be read as it is keeps an element canonical. -/
theorem canonical_setProperty {node new : Node} (h : node.Canonical) {name : String}
    {value : PropertyValue} (hvalue : value.Canonical)
    (hedit : node.editHere (.setProperty name value) = .ok new) : new.Canonical := by
  cases node with
  | element =>
    cases hedit
    obtain ⟨hproperties, hextra⟩ := h.here
    exact ⟨⟨propertiesFit_insert hproperties hvalue, hextra⟩, h.child⟩
  | root | text | comment | raw | other => cases hedit

/-- A change at the node keeps it canonical. -/
theorem canonical_editHere {node new : Node} {change : Edit} (h : node.Canonical)
    (hplain : change.Plain) (hedit : node.editHere change = .ok new) : new.Canonical := by
  cases hplain with
  | markDiagrams language =>
    cases hedit
    exact Diagram.canonical_mark h
  | replace hnode =>
    cases hedit
    exact hnode.canonical
  | push hchild =>
    rw [editHere] at hedit
    split at hedit
    · next children hchildren =>
      cases hedit
      -- The children that stay were canonical in the node.
      refine h.setChildren canonicalHere_ignoresChildren fun child hmem => ?_
      rcases List.mem_append.mp hmem with hmem | hmem
      · exact h.child child (by rwa [childList_of_children? hchildren])
      · rw [List.mem_singleton.mp hmem]
        exact hchild.canonical
    · cases hedit
  | remove index =>
    rw [editHere] at hedit
    split at hedit
    · next children hchildren =>
      split at hedit
      · cases hedit
        refine h.setChildren canonicalHere_ignoresChildren fun child hmem => ?_
        exact h.child child (by
          rw [childList_of_children? hchildren]
          exact List.mem_of_mem_eraseIdx hmem)
      · cases hedit
    · cases hedit
  | setString name value =>
    exact canonical_setProperty h (PropertyValue.canonical_string value) hedit
  | setBool name value =>
    exact canonical_setProperty h (PropertyValue.canonical_bool value) hedit
  | setNumber name value =>
    exact canonical_setProperty h (PropertyValue.canonical_number _) hedit
  | setClasses names =>
    exact canonical_setProperty h (PropertyValue.canonical_list names) hedit

end Node

/-- **A tree that is built is canonical.** -/
theorem Built.canonical {tree : Node} (h : Built tree) : tree.Canonical := by
  induction h with
  | read h => exact Node.canonical_of_read h
  | converted options tree => exact Conversion.canonical_toHast options tree
  | edited _ hplain hedit ih =>
    exact ih.edit Node.canonicalHere_ignoresChildren
      (fun _ _ hnode hhere => Node.canonical_editHere hnode hplain hhere) hedit

/-- **A tree that is built is written without repeated names and read back from its text**, if its
numbers are integers of 64 bits and it is not nested too deep. -/
theorem Built.roundTrip {tree : Node} (h : Built tree) (hwords : tree.written.Words)
    (hnesting : tree.written.nesting ≤ 127) :
    tree.written.Distinct ∧ Node.read tree.print = .ok tree :=
  ⟨Node.distinct_written h.canonical, Node.read_print h.canonical hwords hnesting⟩

/-- A paragraph that is converted and then gets a property is read back from its text. -/
theorem roundTrip_paragraph :
    let source : Mdast.Node :=
      .branch .root [.branch .paragraph [.leaf (.text "a\n\"b\"") none] none] none
    let tree : Node :=
      .root [.tag "p" [("tabIndex", .number (.int 3))] [.plain "a\n\"b\""] none] none []
    (source.toHast {}).value.edit (.setProperty "tabIndex" (.number (.int 3))) [0] = .ok tree ∧
    tree.written.Distinct ∧ Node.read tree.print = .ok tree := by
  intro source tree
  have hedit : (source.toHast {}).value.edit (.setProperty "tabIndex" (.number (.int 3))) [0]
      = .ok tree := rfl
  have hbuilt : Built tree := .edited (.converted {} source) (.setNumber "tabIndex" 3) hedit
  have hwords : tree.written.Words := by
    have hnumber : (Json.num (.int 3)).Words := Json.words_num (by decide)
    simp [tree, Node.tag, Node.plain, Node.written, Node.rootMembers, Node.elementMembers,
      Node.leafMembers, propertiesJson, PropertyValue.toJson, Json.words_obj, Json.words_arr,
      hnumber]
  exact ⟨hedit, hbuilt.roundTrip hwords (by decide)⟩

end Hypermark.Hast
