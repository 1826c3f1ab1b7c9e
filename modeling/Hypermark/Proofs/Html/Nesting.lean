import Hypermark.Proofs.Html.ReadBack

/-!
# Tags are nested

The tags of a tree are nested whatever its nodes are (`balanced_tokens`).  In the HTML of a tree that
can be read back there are no other brackets than those of its tags (`count_html`), since names have
none and texts and values are escaped.
-/

namespace Hypermark.Html

open Hast (Node Properties voidElements attributeName attributeHtml attributesHtml escapeText
  escapeValue escapeTextChar escapeValueChar)

/-- The token is the start or the end of an element. -/
def Token.isTag : Token → Bool
  | startTag .. | endTag _ => true
  | text _ | comment _ => false

/-- Every end tag ends the element that was opened last, and in the end none is open; `opened` are the
names of the open elements, the last one first. A void element is not opened. -/
def balanced : List String → List Token → Bool
  | opened, [] => opened.isEmpty
  | opened, .startTag name _ :: tokens =>
    balanced (if voidElements.contains name then opened else name :: opened) tokens
  | [], .endTag _ :: _ => false
  | last :: opened, .endTag name :: tokens => last = name && balanced opened tokens
  | opened, .text _ :: tokens | opened, .comment _ :: tokens => balanced opened tokens

/-- Elements may stand in each other and beside each other, but not overlap. -/
example : balanced [] [.startTag "p" [], .startTag "em" [], .endTag "em", .startTag "br" [],
      .endTag "p"] = true ∧
    balanced [] [.startTag "p" [], .startTag "em" [], .endTag "p", .endTag "em"] = false := by
  decide

/-! ## Balance -/

/-- Texts do not matter for the balance. -/
theorem balanced_putText (opened : List String) (value : String) (tokens : List Token) :
    balanced opened (Token.putText value tokens) = balanced opened tokens := by
  unfold Token.putText
  split
  · rw [balanced, balanced]
  · unfold Token.ofText
    split
    · rw [List.nil_append]
    · rw [List.singleton_append, balanced]

/-- Joining texts does not change the balance. -/
theorem balanced_join (opened : List String) (pieces : List Token) :
    balanced opened (Token.join pieces) = balanced opened pieces := by
  induction pieces generalizing opened with
  | nil => rfl
  | cons token pieces ih =>
    cases token with
    | text value => rw [Token.join, balanced_putText, ih, balanced]
    | startTag | comment => simp only [Token.join, balanced, ih]
    | endTag => cases opened <;> simp only [Token.join, balanced, ih]

end Hypermark.Html

namespace Hypermark.Hast.Node

open Html (Token balanced)

mutual

/-- The tags of a tree leave the open elements as they are. -/
theorem balanced_pieces : (node : Node) → ∀ (opened : List String) (rest : List Token),
    balanced opened (node.pieces ++ rest) = balanced opened rest
  | root children .., opened, rest => by
    rw [pieces]
    exact balanced_piecesAll children opened rest
  | element tagName properties children .., opened, rest => by
    rw [pieces, List.cons_append, balanced]
    split
    -- A void element has no end tag, and was not opened.
    · rfl
    -- Behind the children the name of the element is on top again.
    · rw [List.append_assoc, balanced_piecesAll children, List.singleton_append, balanced]
      simp
  | text .., opened, rest | comment .., opened, rest => by
    rw [pieces, List.singleton_append, balanced]
  | raw .., _, _ | other _, _, _ => rfl

/-- So do those of a list of trees. -/
theorem balanced_piecesAll : (nodes : List Node) → ∀ (opened : List String) (rest : List Token),
    balanced opened (piecesAll nodes ++ rest) = balanced opened rest
  | [], _, _ => rfl
  | node :: nodes, opened, rest => by
    rw [piecesAll, List.append_assoc, balanced_pieces node, balanced_piecesAll nodes]

end

/-- **The tags of a tree are nested.** -/
theorem balanced_tokens (node : Node) : balanced [] node.tokens = true := by
  have h := balanced_pieces node [] []
  rw [List.append_nil] at h
  rw [tokens, Html.balanced_join, h, balanced, List.isEmpty_nil]

end Hypermark.Hast.Node

namespace Hypermark.Html

open Hast (Properties PropertyValue attributeName attributeHtml attributesHtml escapeText escapeValue)

/-! ## Brackets -/

/-- There is no bracket in the text. -/
def NoBrackets (s : String) : Prop := '<' ∉ s.toList ∧ '>' ∉ s.toList

instance (s : String) : Decidable (NoBrackets s) :=
  inferInstanceAs (Decidable (_ ∧ _))

variable {s t name : String}

/-- There is no bracket in a text if none of its characters is one. -/
theorem noBrackets_iff : NoBrackets s ↔ ∀ c ∈ s.toList, c ≠ '<' ∧ c ≠ '>' := by
  rw [NoBrackets, forall₂_and]
  exact and_congr ⟨fun h c hc => ne_of_mem_of_not_mem hc h, fun h hmem => h _ hmem rfl⟩
    ⟨fun h c hc => ne_of_mem_of_not_mem hc h, fun h hmem => h _ hmem rfl⟩

/-- Two texts have no bracket if neither of them has one. -/
theorem noBrackets_append : NoBrackets (s ++ t) ↔ NoBrackets s ∧ NoBrackets t := by
  simp only [noBrackets_iff, String.toList_append, List.forall_mem_append]

/-- There is no bracket in an escaped text. -/
theorem noBrackets_escapeText (value : String) : NoBrackets (escapeText value) := by
  rw [noBrackets_iff, escapeText, String.toList_ofList]
  intro d hd
  obtain ⟨c, _, hc⟩ := List.mem_flatMap.mp hd
  obtain ⟨hopen, hclose, -⟩ := ne_of_mem_escapeTextChar hc
  exact ⟨hopen, hclose⟩

/-- Nor is there one in an escaped value. -/
theorem noBrackets_escapeValue (value : String) : NoBrackets (escapeValue value) := by
  rw [noBrackets_iff, escapeValue, String.toList_ofList]
  intro d hd
  obtain ⟨c, _, hc⟩ := List.mem_flatMap.mp hd
  obtain ⟨hopen, hclose, -⟩ := ne_of_mem_escapeValueChar hc
  exact ⟨hopen, hclose⟩

/-- Nor in a name. -/
theorem noBrackets_of_isName (h : isName name = true) : NoBrackets name := by
  rw [noBrackets_iff]
  intro c hc
  obtain ⟨-, -, hopen, hclose, -⟩ := ne_of_isNameChar ((isName_iff.mp h).2 c hc)
  exact ⟨hopen, hclose⟩

/-- Nor in an attribute, if its name may stand in a tag. -/
theorem noBrackets_attributeHtml (h : isName (attributeName name) = true) (value : PropertyValue) :
    NoBrackets (attributeHtml name value) := by
  have hblank : NoBrackets " " := by decide
  have hequals : NoBrackets "=\"" := by decide
  have hquote : NoBrackets "\"" := by decide
  have hname := noBrackets_of_isName h
  unfold attributeHtml
  split
  · decide
  · decide
  · exact noBrackets_append.mpr ⟨hblank, hname⟩
  · simp only [noBrackets_append]
    exact ⟨⟨⟨⟨hblank, hname⟩, hequals⟩, noBrackets_escapeValue _⟩, hquote⟩

/-- There is no bracket in attributes. -/
theorem noBrackets_attributesHtml {properties : Properties}
    (h : ∀ entry ∈ properties, isName (attributeName entry.1) = true) :
    NoBrackets (attributesHtml properties) := by
  induction properties with
  | nil => decide
  | cons entry properties ih =>
    obtain ⟨hname, hnames⟩ := List.forall_mem_cons.mp h
    rw [attributesHtml, List.map_cons, String.join_cons]
    exact noBrackets_append.mpr ⟨noBrackets_attributeHtml hname entry.2, ih hnames⟩

variable {bracket : Char}

/-- A text without brackets has zero of either. -/
theorem NoBrackets.count (h : NoBrackets s) (hbracket : bracket = '<' ∨ bracket = '>') :
    s.toList.count bracket = 0 := by
  rcases hbracket with rfl | rfl
  · exact List.count_eq_zero.mpr h.1
  · exact List.count_eq_zero.mpr h.2

/-- A start tag has one bracket of each kind. -/
theorem count_startTag (hname : isTagName name = true) {properties : Properties}
    (hnames : ∀ entry ∈ properties, isName (attributeName entry.1) = true)
    (hbracket : bracket = '<' ∨ bracket = '>') :
    ("<" ++ name ++ attributesHtml properties ++ ">").toList.count bracket = 1 := by
  have hname := (noBrackets_of_isName (isName_of_isTagName hname)).count hbracket
  have hattributes := (noBrackets_attributesHtml hnames).count hbracket
  rcases hbracket with rfl | rfl <;> simp [String.toList_append, hname, hattributes]

/-- An end tag has one bracket of each kind. -/
theorem count_endTag (hname : isTagName name = true) (hbracket : bracket = '<' ∨ bracket = '>') :
    ("</" ++ name ++ ">").toList.count bracket = 1 := by
  have hname := (noBrackets_of_isName (isName_of_isTagName hname)).count hbracket
  rcases hbracket with rfl | rfl <;> simp [String.toList_append, hname]

end Hypermark.Html

namespace Hypermark.Hast.Node

open Html

variable {bracket : Char}

mutual

/-- In the HTML of a tree there is one bracket of each kind for every tag. -/
theorem count_htmlIn (hbracket : bracket = '<' ∨ bracket = '>') : (node : Node) → node.Readable →
    (node.htmlIn false).toList.count bracket = node.pieces.countP Token.isTag
  | root children .., h => by
    rw [htmlIn, pieces]
    exact count_htmlAllIn hbracket children h.child
  | element tagName properties children .., h => by
    obtain ⟨htag, hraw, hnames⟩ := h.here
    have hraw : rawTextElements.contains tagName = false := by simpa using hraw
    rw [htmlIn, pieces, hraw, String.toList_append, List.count_append,
      count_startTag htag hnames hbracket, List.countP_cons_of_pos rfl, Nat.add_comm]
    congr 1
    split
    · rfl
    · rw [toList_append_endTag, List.count_append, count_htmlAllIn hbracket children h.child,
        count_endTag htag hbracket, List.countP_append]
      rfl
  | text value .., _ => (noBrackets_escapeText value).count hbracket
  | other _, _ => rfl
  | comment .., h | raw .., h => h.here.elim

/-- So it is for a list of trees. -/
theorem count_htmlAllIn (hbracket : bracket = '<' ∨ bracket = '>') :
    (nodes : List Node) → (∀ node ∈ nodes, node.Readable) →
    (htmlAllIn false nodes).toList.count bracket = (piecesAll nodes).countP Token.isTag
  | [], _ => rfl
  | node :: nodes, h => by
    obtain ⟨hnode, hnodes⟩ := List.forall_mem_cons.mp h
    rw [htmlAllIn, piecesAll, String.toList_append, List.count_append, List.countP_append,
      count_htmlIn hbracket node hnode, count_htmlAllIn hbracket nodes hnodes]

end

/-! ## Elements -/

mutual

/-- The names of the elements in a tree, in document order. -/
def tagNames : Node → List String
  | root children .. => tagNamesAll children
  | element tagName _ children .. => tagName :: tagNamesAll children
  | text .. | comment .. | raw .. | other _ => []

/-- The names of the elements in a list of trees, in document order. -/
def tagNamesAll : List Node → List String
  | [] => []
  | node :: nodes => node.tagNames ++ tagNamesAll nodes

end

/-- A void element has no children. -/
def VoidHere : Node → Prop
  | element tagName _ children .. => tagName ∈ voidElements → children = []
  | _ => True

mutual

/-- Every element has a start tag, and all but the void ones have an end tag. -/
theorem countP_pieces : (node : Node) → node.Everywhere VoidHere →
    node.pieces.countP Token.isTag
      = node.tagNames.length + node.tagNames.countP (· ∉ voidElements)
  | root children .., h => by
    rw [pieces, tagNames]
    exact countP_piecesAll children h.child
  | element tagName properties children .., h => by
    have hchildren := countP_piecesAll children h.child
    rw [pieces, tagNames, List.countP_cons_of_pos rfl, List.length_cons, List.countP_cons]
    split
    -- The children of a void element are not written, so there must not be any.
    · next hvoid =>
      have hvoid : tagName ∈ voidElements := by simpa using hvoid
      have hnone : children = [] := h.here hvoid
      simp [hnone, tagNamesAll, hvoid]
    · next hvoid =>
      have hvoid : tagName ∉ voidElements := by simpa using hvoid
      have hend : [Token.endTag tagName].countP Token.isTag = 1 := rfl
      rw [List.countP_append, hchildren, hend, if_pos (decide_eq_true hvoid)]
      omega
  | text .., _ | comment .., _ | raw .., _ | other _, _ => rfl

/-- So it is for a list of trees. -/
theorem countP_piecesAll : (nodes : List Node) → (∀ node ∈ nodes, node.Everywhere VoidHere) →
    (piecesAll nodes).countP Token.isTag
      = (tagNamesAll nodes).length + (tagNamesAll nodes).countP (· ∉ voidElements)
  | [], _ => rfl
  | node :: nodes, h => by
    obtain ⟨hnode, hnodes⟩ := List.forall_mem_cons.mp h
    rw [piecesAll, tagNamesAll, List.countP_append, countP_pieces node hnode,
      countP_piecesAll nodes hnodes, List.length_append, List.countP_append]
    omega

end

/-- **The brackets in the HTML of a tree are those of the tags of its elements.** -/
theorem count_html (hbracket : bracket = '<' ∨ bracket = '>') {tree : Node} (h : tree.Readable)
    (hvoid : tree.Everywhere VoidHere) :
    tree.html.toList.count bracket
      = tree.tagNames.length + tree.tagNames.countP (· ∉ voidElements) := by
  rw [html, count_htmlIn hbracket tree h, countP_pieces tree hvoid]

mutual

/-- What holds of every element holds of their names. -/
theorem forall_mem_tagNames {p : Node → Prop} {q : String → Prop}
    (hp : ∀ tagName properties children position extra,
      p (element tagName properties children position extra) → q tagName) :
    (node : Node) → node.Everywhere p → ∀ tagName ∈ node.tagNames, q tagName
  | root children .., h => forall_mem_tagNamesAll hp children h.child
  | element _ _ children .., h => by
    rw [tagNames, List.forall_mem_cons]
    exact ⟨hp _ _ _ _ _ h.here, forall_mem_tagNamesAll hp children h.child⟩
  | text .., _ | comment .., _ | raw .., _ | other _, _ => List.forall_mem_nil _

/-- So it is for a list of trees. -/
theorem forall_mem_tagNamesAll {p : Node → Prop} {q : String → Prop}
    (hp : ∀ tagName properties children position extra,
      p (element tagName properties children position extra) → q tagName) :
    (nodes : List Node) → (∀ node ∈ nodes, node.Everywhere p) →
      ∀ tagName ∈ tagNamesAll nodes, q tagName
  | [], _ => List.forall_mem_nil _
  | node :: nodes, h => by
    obtain ⟨hnode, hnodes⟩ := List.forall_mem_cons.mp h
    rw [tagNamesAll, List.forall_mem_append]
    exact ⟨forall_mem_tagNames hp node hnode, forall_mem_tagNamesAll hp nodes hnodes⟩

end

end Hypermark.Hast.Node
