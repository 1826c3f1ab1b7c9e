import Hypermark.Processor
import Hypermark.Proofs.Conversion.Gathered
import Hypermark.Proofs.Diagram.Frame
import Hypermark.Proofs.Preorder
import Mathlib.Data.List.Flatten

/-!
# Where hypertext comes from

A node of hypertext stands for the span of the document that its Markdown node stands for, or for none.
So the positions in hypertext are some of those in the document, each at most as often as there and all
in the same order, and marking diagrams leaves some of them out (`positions_toHast`).  No rule for
tables is needed: what a table leaves out takes its positions with it.
-/

namespace Hypermark

/-- The positions that the nodes of a tree have, in document order. -/
def Mdast.Node.positions (node : Mdast.Node) : List Position :=
  node.preorder.flatMap fun node => node.position?.toList

/-- The positions that the nodes of a tree have, in document order. -/
def Hast.Node.positions (node : Hast.Node) : List Position :=
  node.preorder.flatMap fun node => node.position?.toList

namespace Hast.Node

/-- The positions of an element: its own, and then those of its children. -/
@[simp] theorem positions_tag (tagName : String) (properties : Properties) (children : List Node)
    (position : Option Position) : (tag tagName properties children position).positions
      = position.toList ++ children.flatMap positions :=
  flatMap_preorder _ _

/-- A text has its own position, or none. -/
@[simp] theorem positions_text (value : String) (position : Option Position)
    (extra : Members Json) : (text value position extra).positions = position.toList :=
  List.append_nil _

/-- A text of its value alone has none. -/
@[simp] theorem positions_plain (value : String) : (plain value).positions = [] := rfl

/-- Raw markup has its own position, or none. -/
@[simp] theorem positions_raw (value : String) (position : Option Position)
    (extra : Members Json) : (raw value position extra).positions = position.toList :=
  List.append_nil _

end Hast.Node

/-- The spans start in an order of points. -/
def StartInOrder (before : Point → Point → Prop) (spans : List Position) : Prop :=
  spans.Pairwise fun first second => before first.start second.start

/-- Spans that start in order still do if some are left out. -/
theorem StartInOrder.sublist {before : Point → Point → Prop} {some all : List Position}
    (h : StartInOrder before all) (hsome : some.Sublist all) : StartInOrder before some :=
  List.Pairwise.sublist hsome h

namespace Conversion

open Hast (Properties)

/-! ## The conversion -/

/-- What becomes of a leaf has the position of the leaf once, if it becomes anything. -/
theorem positions_leaf (options : ConversionOptions) (kind : Mdast.Leaf)
    (position : Option Position) :
    ((leaf options position kind).value.flatMap Hast.Node.positions).Sublist
      (Mdast.Node.leaf kind position).positions := by
  have hall : (Mdast.Node.leaf kind position).positions = position.toList := List.append_nil _
  have hself {nodes : List Hast.Node} (h : nodes.flatMap Hast.Node.positions = position.toList) :
      (nodes.flatMap Hast.Node.positions).Sublist (Mdast.Node.leaf kind position).positions := by
    rw [h, hall]
  cases kind with
  | html value =>
    rw [leaf]
    split
    · exact hself (by simp [Logged.plain])
    · exact List.nil_sublist _
  | text | inlineCode | code | math | inlineMath | lineBreak | thematicBreak | image =>
    exact hself (by simp [leaf, Logged.plain, codeBlock, element, lineFeed])
  -- Nothing becomes of all other leaves.
  | _ => exact List.nil_sublist _

/-- Some of the positions in a document are those in its hypertext. -/
theorem gathers_positions (options : ConversionOptions) :
    Gathers List.Sublist (fun _ _ position => position.toList) (fun _ _ position => position.toList)
      Hast.Node.positions Mdast.Node.positions (leaf options) where
  compares := ⟨List.Sublist.refl, List.Sublist.trans, List.Sublist.append⟩
  read_lineFeed := rfl
  read_space := rfl
  read_wrapper _ children position := Hast.Node.positions_tag _ _ children position
  read_root _ nodes position := Hast.Node.flatMap_preorder _ (.root nodes position [])
  here_added _ := rfl
  here_paragraph position := List.nil_sublist _
  read_checkbox checked position := List.append_nil _
  here_wraps _ _ := List.Sublist.refl _
  place_root _ := rfl
  place_givesWay _ _ _ := List.nil_sublist _
  leaf kind position := positions_leaf options kind position
  source_branch kind children position := by
    have hbox : taskItems Hast.Node.positions kind = [] := by
      cases kind with
      | listItem spread checked => cases checked <;> rfl
      | _ => rfl
    rw [hbox, List.append_nil]
    exact Mdast.Node.flatMap_preorder _ _

/-- What a table leaves out, and what is a cell in it without being one, loses positions at most. -/
theorem forgiving_positions : Forgiving List.Sublist (fun _ _ position => position.toList)
    (fun _ _ position => position.toList) Mdast.Node.positions where
  nothing := List.nil_sublist
  branch _ _ _ _ _ := List.Sublist.refl _
  leaf _ _ kind position := by
    rw [Mdast.Node.positions, Mdast.Node.flatMap_preorder]
    exact List.sublist_append_left _ _

end Conversion

/-! ## Marking -/

namespace Diagram

open Hast

/-- A marker has no position. -/
theorem positions_marker (language content : String) : (marker language content).positions = [] :=
  rfl

/-- **Marking adds no position to a tree.** -/
theorem positions_mark_sublist (language : String) (tree : Node) :
    (mark language tree).positions.Sublist tree.positions := by
  induction tree using Node.induction_children with
  | step tree ih =>
    rw [mark]
    cases nodeSearch language tree with
    | block content _ hmark =>
      rw [hmark, positions_marker]
      exact List.nil_sublist _
    | kept value hnode hmark =>
      subst hnode
      rw [hmark]
      exact List.Sublist.refl _
    | searched kind hkind _ hmark =>
      rw [hmark]
      cases tree with
      | root children position extra | element _ _ children position extra =>
        rw [Node.setChildren, Node.positions, Node.positions, Node.flatMap_preorder,
          Node.flatMap_preorder]
        refine List.Sublist.append (List.Sublist.refl _) ?_
        rw [Node.childList, Node.children?, Option.getD_some, List.flatMap_map]
        exact List.Sublist.flatMap_right _ ih
      | text | comment | raw => exact List.Sublist.refl _
      | other => cases hkind

/-- **However many languages are marked, no position is added.** -/
theorem positions_runSteps_sublist (languages : List String) (tree : Node) :
    (Processor.runSteps (languages.map mark) tree).positions.Sublist tree.positions := by
  induction languages generalizing tree with
  | nil => exact List.Sublist.refl _
  | cons language languages ih => exact (ih _).trans (positions_mark_sublist language tree)

end Diagram

namespace Conversion

/-- **The positions in hypertext are some of those in the document, in the same order, and marking
leaves some of them out.** So spans that start in order in the document do so in the hypertext. -/
theorem positions_toHast (options : ConversionOptions) (languages : List String)
    (source : Mdast.Node) :
    let tree := (source.toHast options).value
    let marked := Processor.runSteps (languages.map Diagram.mark) tree
    tree.positions.Sublist source.positions ∧ marked.positions.Sublist tree.positions ∧
    ∀ before : Point → Point → Prop, StartInOrder before source.positions →
      StartInOrder before tree.positions ∧ StartInOrder before marked.positions := by
  intro tree marked
  have htree : tree.positions.Sublist source.positions :=
    (gathers_positions options).relates (.inl forgiving_positions)
  have hmarked : marked.positions.Sublist tree.positions :=
    Diagram.positions_runSteps_sublist languages tree
  refine ⟨htree, hmarked, fun before horder => ?_⟩
  exact ⟨horder.sublist htree, horder.sublist (hmarked.trans htree)⟩

/-- The paragraph of a tight item, what has no hypertext and what stands between the rows of a table
lose their positions; what is no cell keeps its own in the cell that is made of it. -/
theorem positions_toHast_irregular :
    let on (line : Nat) : Position := ⟨⟨line, 1, none⟩, ⟨line, 2, none⟩⟩
    let text (line : Nat) : Mdast.Node := .leaf (.text "a") (some (on line))
    let item : Mdast.Node := .branch (.listItem false (some true))
      [.branch .paragraph [text 4] (some (on 3))] (some (on 2))
    let row : Mdast.Node := .branch .tableRow
      [.branch .tableCell [] (some (on 9)), text 10] (some (on 8))
    let source : Mdast.Node := .branch .root [.branch (.list false none false) [item] (some (on 1)),
      .leaf (.code "b" (some "mermaid") none) (some (on 5)), .leaf (.html "c") (some (on 6)),
      .branch (.table [none]) [row, .branch .paragraph [] (some (on 11))] (some (on 7))] none
    let tree := (source.toHast {}).value
    source.positions = [1, 2, 3, 4, 5, 6, 7, 8, 9, 10, 11].map on ∧
    tree.positions = [1, 2, 4, 5, 7, 8, 9, 10].map on ∧
    StartInOrder (fun first second => first.line ≤ second.line)
      (Processor.runSteps (["mermaid"].map Diagram.mark) tree).positions := by
  intro on text item row source tree
  have hsource : source.positions = [1, 2, 3, 4, 5, 6, 7, 8, 9, 10, 11].map on := by decide
  have horder : StartInOrder (fun first second => first.line ≤ second.line) source.positions := by
    rw [hsource, StartInOrder]
    decide
  exact ⟨hsource, by decide, ((positions_toHast {} ["mermaid"] source).2.2 _ horder).2⟩

end Conversion

end Hypermark
