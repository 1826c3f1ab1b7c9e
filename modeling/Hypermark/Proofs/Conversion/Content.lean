import Hypermark.Proofs.Conversion.Gathered
import Hypermark.Proofs.Diagram.Texts

/-!
# The text of a document through the conversion

Blanks and line ends are added between blocks and changed in code, but everything else that is written
in a document stands in the texts of its hypertext, once and in the same order
(`solid_texts_toHast`).
-/

namespace Hypermark.Mdast

/-- What a leaf has of the text of a document. Raw HTML, references, expressions and what stands in
front of a document have nothing of it. -/
def Leaf.content : Leaf → String
  | text value => value
  | inlineCode value => value
  | code value _ _ => value
  | math value _ => value
  | inlineMath value => value
  | _ => ""

namespace Node

mutual

/-- The text of a document, in order. -/
def content : Node → String
  | branch _ children _ => contentAll children
  | leaf kind _ => kind.content

/-- The text of documents, one behind the other. -/
def contentAll : List Node → String
  | [] => ""
  | node :: nodes => node.content ++ contentAll nodes

end

end Node

end Hypermark.Mdast

namespace Hypermark.Conversion

/-! ## Solid characters -/

/-- A blank or the end of a line. -/
def isSpacing (c : Char) : Bool := c = ' ' || c = '\n' || c = '\r'

/-- The characters of a text that are neither blanks nor line ends. -/
def solid (text : String) : List Char := text.toList.filter fun c => !isSpacing c

/-- The solid characters of two texts are those of both, one behind the other. -/
theorem solid_append (first second : String) :
    solid (first ++ second) = solid first ++ solid second := by
  rw [solid, String.toList_append, List.filter_append, solid, solid]

/-- The solid characters of the texts of a list of nodes are those of each. -/
theorem solid_textsAll (nodes : List Hast.Node) :
    solid (Hast.Node.textsAll nodes) = nodes.flatMap fun node => solid node.texts := by
  induction nodes with
  | nil => rfl
  | cons node nodes ih => rw [Hast.Node.textsAll, solid_append, ih, List.flatMap_cons]

/-- The solid characters of a list of documents are those of each. -/
theorem solid_contentAll (trees : List Mdast.Node) :
    solid (Mdast.Node.contentAll trees) = trees.flatMap fun tree => solid tree.content := by
  induction trees with
  | nil => rfl
  | cons tree trees ih => rw [Mdast.Node.contentAll, solid_append, ih, List.flatMap_cons]

/-- Line ends that become blanks are not solid before or afterwards. -/
theorem solid_spaceLines (chars : List Char) :
    solid (String.ofList (spaceLines chars)) = solid (String.ofList chars) := by
  unfold solid
  rw [String.toList_ofList, String.toList_ofList]
  fun_induction spaceLines chars with
  | case1 => rfl
  | case2 cs ih =>
    rw [List.filter_cons_of_neg (by decide), List.filter_cons_of_neg (by decide),
      List.filter_cons_of_neg (by decide), ih]
  | case3 c cs _ ih =>
    by_cases hline : c = '\n' ∨ c = '\r'
    · have hspacing : isSpacing c = true := by
        rcases hline with rfl | rfl <;> rfl
      rw [if_pos hline, List.filter_cons_of_neg (by decide),
        List.filter_cons_of_neg (by simp [hspacing]), ih]
    · rw [if_neg hline, List.filter_cons, List.filter_cons, ih]

/-- A line feed behind a block of code is not solid. -/
theorem solid_codeText (value : String) : solid (codeText value) = solid value := by
  unfold codeText
  split
  · next hempty => rw [String.isEmpty_iff.mp hempty]
  · rw [solid_append, show solid "\n" = [] from rfl, List.append_nil]

/-! ## What is kept -/

/-- The texts of an element around a text are that text. -/
theorem texts_tag_plain (tagName : String) (properties : Hast.Properties) (value : String)
    (position : Option Position) :
    (Hast.Node.tag tagName properties [.plain value] position).texts = value := by
  simp [Hast.Node.tag, Hast.Node.plain, Hast.Node.texts, Hast.Node.textsAll]

/-- So are those of a block of code. -/
theorem texts_codeBlock (properties : Hast.Properties) (value : String)
    (position : Option Position) : (codeBlock properties value position).texts = value := by
  simp [codeBlock, element, Hast.Node.tag, Hast.Node.plain, Hast.Node.texts, Hast.Node.textsAll]

/-- The hypertext of a leaf has the text of the leaf. -/
theorem solid_texts_leaf (options : ConversionOptions) (kind : Mdast.Leaf)
    (position : Option Position) :
    ((leaf options position kind).value.flatMap fun node => solid node.texts)
      = solid kind.content := by
  have hself {node : Hast.Node} {text : String} (h : solid node.texts = solid text) :
      ([node].flatMap fun node => solid node.texts) = solid text := by
    rw [List.flatMap_singleton, h]
  cases kind with
  | text value => exact hself rfl
  | inlineCode value =>
    refine hself ?_
    rw [element, texts_tag_plain, solid_spaceLines, String.ofList_toList]
    rfl
  | code value lang info =>
    refine hself ?_
    rw [texts_codeBlock, solid_codeText]
    rfl
  | math value info => exact hself (congrArg solid (texts_codeBlock _ value position))
  | inlineMath value => exact hself (congrArg solid (texts_tag_plain _ _ value position))
  | html value =>
    rw [leaf]
    split
    · exact hself rfl
    · rfl
  -- All other leaves become elements without texts, or nothing.
  | _ => rfl

/-- What is read off the texts of hypertext goes with what is read off a document. -/
theorem gathers_solid (options : ConversionOptions) :
    Gathers Eq (fun _ _ _ => []) (fun _ _ _ => []) (fun node => solid node.texts)
      (fun tree => solid tree.content) (leaf options) where
  compares := ⟨fun _ => rfl, Eq.trans, fun h h' => by rw [h, h']⟩
  read_lineFeed := rfl
  read_space := rfl
  read_wrapper _ children _ := solid_textsAll children
  read_root _ nodes _ := solid_textsAll nodes
  here_added _ := rfl
  here_paragraph _ := rfl
  read_checkbox _ _ := rfl
  here_wraps _ _ := rfl
  place_root _ := rfl
  place_givesWay _ _ _ := rfl
  leaf kind position := solid_texts_leaf options kind position
  source_branch kind children position := by
    have hbox : taskItems (fun node => solid node.texts) kind = [] := by
      cases kind with
      | listItem spread checked => cases checked <;> rfl
      | _ => rfl
    rw [hbox, Mdast.Node.content, solid_contentAll]
    rfl

/-- **The conversion neither loses nor repeats nor moves any text: blanks and line ends aside, the texts
of the hypertext are the text of the document.** -/
theorem solid_texts_toHast (options : ConversionOptions) {tree : Mdast.Node}
    (h : tree.hasRegularTables) :
    solid (tree.toHast options).value.texts = solid tree.content :=
  (gathers_solid options).toHastBy h

/-- In a tight task the paragraph is opened and gets a checkbox, and the cells of a table go to its
head and its body. -/
theorem solid_texts_toHast_nested :
    let text (value : String) : Mdast.Node := .leaf (.text value) none
    let row (value : String) : Mdast.Node :=
      .branch .tableRow [.branch .tableCell [text value] none] none
    let item : Mdast.Node := .branch (.listItem false (some true))
      [.branch .paragraph [text "a b"] none, .leaf (.code "c\nd" none none) none] none
    let tree : Mdast.Node := .branch .root [.branch (.list false none false) [item] none,
      .branch (.table [none]) [row "e", row "f"] none, .leaf (.html "<i>") none] none
    tree.hasRegularTables ∧
    solid (tree.toHast {}).value.texts = ['a', 'b', 'c', 'd', 'e', 'f'] := by
  intro text row item tree
  have htables : tree.hasRegularTables := by decide
  refine ⟨htables, ?_⟩
  rw [solid_texts_toHast {} htables]
  decide

end Hypermark.Conversion
