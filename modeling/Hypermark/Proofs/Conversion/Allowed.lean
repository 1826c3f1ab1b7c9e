import Hypermark.Processor
import Hypermark.Proofs.Conversion.Marked
import Hypermark.Proofs.Html.Nesting

/-!
# Nothing in a document becomes markup

Without raw HTML a Markdown tree is converted to a root in which there are only texts and a few kinds
of elements (`AllowedTree`), and marking diagrams keeps it so.  The names of tags and properties do not
depend on anything that is written in the document, and everything else is escaped: the tags in the
HTML are those of the elements, and they are nested.
-/

namespace Hypermark.Conversion

open Diagram (mark marker)
open Hast (Properties)
open Html (isTagName isName)

/-! ## What is allowed -/

/-- The tags that do not come from headings. -/
def allowedTags : List String :=
  ["p", "em", "strong", "del", "code", "br", "hr", "blockquote", "a", "img", "pre", "ul", "ol", "li",
    "input", "table", "thead", "tbody", "tr", "th", "td"]

/-- The tag of an element, given the depths of the headings. -/
def AllowedTag (depths : List Nat) (tagName : String) : Prop :=
  tagName ∈ allowedTags ∨ ∃ depth ∈ depths, tagName = "h" ++ toString depth

/-- A text, or an element with such a tag and such properties. -/
inductive Allowed (depths : List Nat) : Hast.Node → Prop
  | text (value : String) (position : Option Position) (extra : Members Json) :
    Allowed depths (.text value position extra)
  | element {tagName : String} {properties : Properties} {children : List Hast.Node}
    (position : Option Position) (extra : Members Json) (htag : AllowedTag depths tagName)
    (hproperties : ∀ entry ∈ properties, entry.1 ∈ propertyNames)
    (hempty : tagName ∈ emptyTags → children = []) :
    Allowed depths (.element tagName properties children position extra)

/-- A root below which there are only such texts and elements. -/
inductive AllowedTree (depths : List Nat) : Hast.Node → Prop
  | root {children : List Hast.Node} (position : Option Position) (extra : Members Json)
    (h : ∀ child ∈ children, child.Everywhere (Allowed depths)) :
    AllowedTree depths (.root children position extra)

variable {depths : List Nat} {tagName : String} {properties : Properties}

/-! ## The conversion -/

/-- The wrappers that are no headings have allowed tags. -/
theorem wrapperTags_subset : wrapperTags ⊆ allowedTags := by decide

/-- A text is allowed, and has nothing below it. -/
theorem everywhere_allowed_text (value : String) (position : Option Position)
    (extra : Members Json) : (Hast.Node.text value position extra).Everywhere (Allowed depths) :=
  Hast.Node.everywhere_of_childless rfl (.text value position extra)

/-- So have the elements without children. -/
theorem emptyTags_subset : emptyTags ⊆ allowedTags := by decide

/-- An element without children. -/
theorem everywhere_allowed_childless (htag : tagName ∈ emptyTags) (h : Made properties)
    (position : Option Position) :
    (Hast.Node.tag tagName properties [] position).Everywhere (Allowed depths) :=
  Hast.Node.everywhere_of_childless rfl
    (.element position [] (.inl (emptyTags_subset htag)) h.mem_propertyNames fun _ => rfl)

/-- An element around allowed nodes. -/
theorem everywhere_allowed_tag (htag : AllowedTag depths tagName) (hempty : tagName ∉ emptyTags)
    (hproperties : Made properties) {children : List Hast.Node}
    (h : ∀ child ∈ children, child.Everywhere (Allowed depths)) (position : Option Position) :
    (Hast.Node.tag tagName properties children position).Everywhere (Allowed depths) :=
  ⟨.element position [] htag hproperties.mem_propertyNames fun hmem => absurd hmem hempty, h⟩

/-- What the conversion puts around allowed nodes is allowed. -/
theorem hereditary_allowed (depths : List Nat) :
    Hereditary depths (Hast.Node.Everywhere (Allowed depths)) where
  plain value := everywhere_allowed_text value none []
  checkbox checked := everywhere_allowed_childless (by decide) (made_checkbox checked) none
  tag position hwrapper h := by
    have htag := hwrapper.tag.imp_left fun h => wrapperTags_subset h
    have hempty : _ ∉ emptyTags := hwrapper.not_mem (by decide) (by decide)
    exact everywhere_allowed_tag htag hempty hwrapper.made h position

/-- Without raw HTML the nodes of leaves are allowed. -/
theorem allowed_leafNode {options : ConversionOptions} (hraw : options.allowDangerousHtml = false)
    {node : Hast.Node} (h : LeafNode options node) : node.Everywhere (Allowed depths) := by
  have hcode {properties : Properties} (h : Made properties) (content : String)
      (position : Option Position) :
      (Hast.Node.tag "code" properties [.plain content] position).Everywhere (Allowed depths) :=
    everywhere_allowed_tag (.inl (by decide)) (by decide) h
      (List.forall_mem_singleton.mpr (everywhere_allowed_text content none [])) position
  cases h with
  | text value position => exact everywhere_allowed_text value position []
  | raw value position h =>
    rw [hraw] at h
    cases h
  | childless position htag h => exact everywhere_allowed_childless htag h position
  | code content position h => exact hcode h content position
  | codeBlock content position h =>
    exact everywhere_allowed_tag (.inl (by decide)) (by decide) .nil
      (List.forall_mem_singleton.mpr (hcode h content none)) position

/-- **Without raw HTML a Markdown tree is converted to allowed nodes only.** -/
theorem allowedTree_toHast {options : ConversionOptions} (hraw : options.allowDangerousHtml = false)
    (source : Mdast.Node) :
    AllowedTree source.headingDepths (source.toHast options).value := by
  obtain ⟨children, position, hvalue, hchildren⟩ :=
    forall_toHast options (hereditary_allowed source.headingDepths) fun _ => allowed_leafNode hraw
  rw [hvalue]
  exact .root position [] hchildren

/-! ## Marking -/

/-- A marker is allowed whatever the language and the text are. -/
theorem everywhere_allowed_marker (language content : String) :
    (marker language content).Everywhere (Allowed depths) :=
  everywhere_allowed_tag (.inl (by decide)) (by decide) (made_onlyClasses [language])
    (List.forall_mem_singleton.mpr (everywhere_allowed_text content none [])) none

/-- Marking keeps what is allowed. -/
theorem everywhere_allowed_mark (language : String) (node : Hast.Node) :
    node.Everywhere (Allowed depths) → (mark language node).Everywhere (Allowed depths) := by
  induction node using Hast.Node.induction_children with
  | step node ih =>
    intro h
    cases Diagram.nodeSearch language node with
    | block content _ hmark =>
      rw [mark, hmark]
      exact everywhere_allowed_marker language content
    -- There are no opaque nodes among the allowed ones.
    | kept value hnode _ =>
      subst hnode
      cases h.here
    | searched _ _ _ hmark =>
      rw [mark, hmark]
      obtain ⟨hhere, hbelow⟩ := h
      cases hhere with
      | text => exact everywhere_allowed_text _ _ _
      | element position extra htag hproperties hempty =>
        refine ⟨.element position extra htag hproperties fun hmem => ?_, ?_⟩
        · rw [Hast.Node.childList_element, hempty hmem, List.map_nil]
        · exact List.forall_mem_map.mpr fun child hchild => ih child hchild (hbelow child hchild)

/-- A step keeps an allowed tree. -/
theorem AllowedTree.mark {tree : Hast.Node} (h : AllowedTree depths tree) (language : String) :
    AllowedTree depths (mark language tree) := by
  cases h with
  | root position extra h =>
    rw [mark_root]
    exact .root position extra (List.forall_mem_map.mpr fun child hchild =>
      everywhere_allowed_mark language child (h child hchild))

/-- **However many languages are marked, the tree stays allowed.** -/
theorem AllowedTree.runSteps {tree : Hast.Node} (h : AllowedTree depths tree)
    (languages : List String) :
    AllowedTree depths (Processor.runSteps (languages.map Diagram.mark) tree) := by
  induction languages generalizing tree with
  | nil => exact h
  | cons language languages ih => exact ih (h.mark language)

/-! ## HTML -/

/-- The tag of a heading may stand in a tag. -/
theorem isTagName_headingTag (depth : Nat) : isTagName ("h" ++ toString depth) = true := by
  obtain ⟨digits, hchars, hdigits⟩ := exists_toList_headingTag depth
  refine Html.isTagName_iff.mpr ⟨'h', digits, hchars, by decide, fun c hc => .inl ?_⟩
  rw [Char.isAlphanum, hdigits c hc, Bool.or_true]

/-- Tags are names, their texts are escaped, and those without children are the void ones. -/
theorem AllowedTag.markup (h : AllowedTag depths tagName) :
    isTagName tagName = true ∧ tagName ∉ Hast.rawTextElements ∧
      (tagName ∈ Hast.voidElements ↔ tagName ∈ emptyTags) := by
  rcases h with h | ⟨depth, _, rfl⟩
  · have hfixed : ∀ name ∈ allowedTags, isTagName name = true ∧ name ∉ Hast.rawTextElements ∧
        (name ∈ Hast.voidElements ↔ name ∈ emptyTags) := by
      decide
    exact hfixed tagName h
  · have hvoid : "h" ++ toString depth ∉ Hast.voidElements := headingTag_not_mem (by decide) depth
    have hempty : "h" ++ toString depth ∉ emptyTags := headingTag_not_mem (by decide) depth
    exact ⟨isTagName_headingTag depth, headingTag_not_mem (by decide) depth,
      iff_of_false hvoid hempty⟩

/-- The attributes of the properties that are set have names that may stand in a tag. -/
theorem isName_of_mem_propertyNames : ∀ name ∈ propertyNames,
    isName (Hast.attributeName name) = true := by
  decide

/-- What holds of roots and of allowed nodes holds everywhere in an allowed tree. -/
theorem AllowedTree.everywhere {tree : Hast.Node} (h : AllowedTree depths tree)
    {p : Hast.Node → Prop} (hroot : ∀ children position extra, p (.root children position extra))
    (hallowed : ∀ node, Allowed depths node → p node) : tree.Everywhere p := by
  cases h with
  | root position extra h =>
    exact ⟨hroot _ position extra, fun child hchild => (h child hchild).imp hallowed⟩

/-- An allowed tree can be read back from its HTML. -/
theorem AllowedTree.readable {tree : Hast.Node} (h : AllowedTree depths tree) : tree.Readable := by
  refine h.everywhere (fun _ _ _ => trivial) fun node hnode => ?_
  cases hnode with
  | text => exact trivial
  | element _ _ htag hproperties _ =>
    obtain ⟨hname, hraw, -⟩ := htag.markup
    exact ⟨hname, hraw, fun entry hentry =>
      isName_of_mem_propertyNames _ (hproperties entry hentry)⟩

/-- In an allowed tree no void element has children. -/
theorem AllowedTree.void {tree : Hast.Node} (h : AllowedTree depths tree) :
    tree.Everywhere Hast.Node.VoidHere := by
  refine h.everywhere (fun _ _ _ => trivial) fun node hnode => ?_
  cases hnode with
  | text => exact trivial
  | element _ _ htag _ hempty => exact fun hvoid => hempty (htag.markup.2.2.mp hvoid)

/-- The elements of an allowed tree have allowed tags. -/
theorem AllowedTree.allowedTag {tree : Hast.Node} (h : AllowedTree depths tree) :
    ∀ tagName ∈ tree.tagNames, AllowedTag depths tagName := by
  cases h with
  | root position extra h =>
    refine Hast.Node.forall_mem_tagNamesAll ?_ _ h
    intro tagName properties children position extra helement
    cases helement with
    | element _ _ htag _ _ => exact htag

/-- In an allowed tree the void elements are those that have no children. -/
theorem AllowedTree.countP_tagNames {tree : Hast.Node} (h : AllowedTree depths tree) :
    tree.tagNames.countP (· ∉ Hast.voidElements) = tree.tagNames.countP (· ∉ emptyTags) := by
  refine List.countP_congr fun tagName hmem => ?_
  obtain ⟨-, -, hvoid⟩ := (h.allowedTag tagName hmem).markup
  rw [decide_eq_true_iff, decide_eq_true_iff, hvoid]

/-- **Without raw HTML nothing in a document becomes markup**: whatever is marked in the converted
tree, there are only texts and elements with a known tag and known properties below its root, the
brackets in its HTML are those of the tags of the elements, and the tags are read back and nested. -/
theorem toHast_allowed {options : ConversionOptions} (hraw : options.allowDangerousHtml = false)
    (source : Mdast.Node) (languages : List String) :
    let tree := Processor.runSteps (languages.map mark) (source.toHast options).value
    AllowedTree source.headingDepths tree ∧
    (∀ bracket, bracket = '<' ∨ bracket = '>' → tree.html.toList.count bracket
      = tree.tagNames.length + tree.tagNames.countP (· ∉ emptyTags)) ∧
    Html.read tree.html = some tree.tokens ∧ Html.balanced [] tree.tokens = true := by
  intro tree
  have hallowed : AllowedTree source.headingDepths tree :=
    (allowedTree_toHast hraw source).runSteps languages
  refine ⟨hallowed, fun bracket hbracket => ?_, ?_, tree.balanced_tokens⟩
  · rw [Hast.Node.count_html hbracket hallowed.readable hallowed.void, hallowed.countP_tagNames]
  · exact Hast.Node.read_html_of_readable hallowed.readable

/-- Markup in a heading and in the language of a diagram is text, and raw HTML is left out. -/
theorem toHast_allowed_hostile :
    let source : Mdast.Node := .branch .root [
      .branch (.heading 7) [.leaf (.text "<b>") none] none,
      .leaf (.code "</pre>" (some "\"><script>") none) none,
      .leaf (.html "<i>") none] none
    let tree := Processor.runSteps (["\"><script>"].map mark) (source.toHast {}).value
    tree = .root [element "h7" [.plain "<b>"] none, lineFeed, marker "\"><script>" "</pre>\n"]
      none [] ∧
    tree.html.toList.count '<' = 4 ∧
    Html.read tree.html = some [.startTag "h7" [], .text "<b>", .endTag "h7", .text "\n",
      .startTag "pre" [⟨"class", some "\"><script>"⟩], .text "</pre>\n", .endTag "pre"] := by
  intro source tree
  have hraw : ({} : ConversionOptions).allowDangerousHtml = false := rfl
  obtain ⟨-, hbrackets, hread, -⟩ := toHast_allowed hraw source ["\"><script>"]
  have hcount : tree.html.toList.count '<'
      = tree.tagNames.length + tree.tagNames.countP (· ∉ emptyTags) := hbrackets '<' (.inl rfl)
  have hread : Html.read tree.html = some tree.tokens := hread
  have htree : tree = .root [element "h7" [.plain "<b>"] none, lineFeed,
      marker "\"><script>" "</pre>\n"] none [] :=
    congrArg Logged.value (map_mark_toHast "\"><script>" {} source)
  refine ⟨htree, ?_, ?_⟩
  · rw [hcount, htree]
    decide
  · rw [hread, htree]
    decide

end Hypermark.Conversion
