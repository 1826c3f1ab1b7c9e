import Hypermark.Proofs.Conversion.Related

/-!
# What is converted could have been read

The hypertext of a Markdown tree is canonical (`canonical_toHast`): every node that the conversion
makes has its properties in order and no other members.
-/

namespace Hypermark.Conversion

/-- Texts in an element with properties in order are canonical. -/
theorem canonical_tag_texts {tagName : String} {properties : Hast.Properties}
    {position : Option Position} (h : Hast.PropertiesFit properties) (values : List String) :
    (Hast.Node.tag tagName properties (values.map .plain) position).Canonical :=
  Hast.Node.canonical_tag h fun child hchild => by
    obtain ⟨value, _, rfl⟩ := List.mem_map.mp hchild
    exact Hast.Node.canonical_plain value

/-- Elements around canonical nodes are canonical. -/
theorem hereditary_canonical (depths : List Nat) : Hereditary depths Hast.Node.Canonical where
  plain := Hast.Node.canonical_plain
  checkbox checked := canonical_tag_texts (made_checkbox checked).propertiesFit []
  tag _ hwrapper h := Hast.Node.canonical_tag hwrapper.made.propertiesFit h

/-- The nodes that leaves are converted to are canonical. -/
theorem canonical_leafNode {options : ConversionOptions} {node : Hast.Node}
    (h : LeafNode options node) : node.Canonical := by
  cases h with
  | text value position => exact Hast.Node.canonical_text value position
  | raw value position => exact Hast.Node.canonical_raw value position
  | childless _ _ h => exact canonical_tag_texts h.propertiesFit []
  | code content position h => exact canonical_tag_texts h.propertiesFit [content]
  | codeBlock content position h =>
    have hcode : (Hast.Node.tag "code" _ [.plain content] none).Canonical :=
      canonical_tag_texts h.propertiesFit [content]
    exact Hast.Node.canonical_tag Hast.propertiesFit_nil (List.forall_mem_singleton.mpr hcode)

/-- **The hypertext of a Markdown tree is canonical.** -/
theorem canonical_toHast (options : ConversionOptions) (tree : Mdast.Node) :
    (tree.toHast options).value.Canonical := by
  obtain ⟨children, position, hvalue, hchildren⟩ :=
    forall_toHast options (hereditary_canonical tree.headingDepths) fun _ => canonical_leafNode
  rw [hvalue]
  exact ⟨Hast.extraFits_nil .root, hchildren⟩

end Hypermark.Conversion
