import Hypermark.Proofs.Conversion.Related
import Hypermark.Proofs.Diagram.Search
import Mathlib.Data.List.TakeWhile

/-!
# Marking while converting

Marking the blocks of a language after the conversion is the same as converting code in that
language, and nothing else, to markers right away (`map_mark_toHast`).  Only code makes a `pre`, so
no other part of the hypertext looks like a block, and what is laid out around code does not depend
on what it is converted to.
-/

namespace Hypermark.Conversion

open Diagram (mark marker languageClass IsBlock blockText?)
open List (Forall₂)

/-- The hypertext of leaves, where code in the language becomes a marker at once. Display math is
code in the language `math`. -/
def markedLeaf (language : String) (options : ConversionOptions) : LeafRule := fun position kind =>
  match kind with
  | .code value lang _ =>
    if lang.bind Text.firstWord? = some language then .plain [marker language (codeText value)]
    else leaf options position kind
  | .math value _ =>
    if language = "math" then .plain [marker language value] else leaf options position kind
  | _ => leaf options position kind

variable {language : String}

/-! ## Code and its classes -/

/-- Languages are told apart by their classes. -/
theorem languageClass_inj {word : String} :
    languageClass language = languageClass word ↔ language = word := by
  unfold languageClass
  exact String.append_right_inj _

/-- An element with given classes has these and no others. -/
theorem hasClass_onlyClasses {names : List String} {name : String} :
    Hast.hasClass (Hast.onlyClasses names) name = true ↔ name ∈ names := by
  simp [Hast.hasClass, Hast.classNames, Hast.onlyClasses, Members.get?_cons]

/-- Code has the class of a language if that is the first word of its info. -/
theorem hasClass_codeProperties {lang : Option String} :
    Hast.hasClass (codeProperties lang) (languageClass language) = true
      ↔ lang.bind Text.firstWord? = some language := by
  unfold codeProperties
  split
  · next word hword =>
    rw [hword, hasClass_onlyClasses, List.mem_singleton, Option.some.injEq, eq_comm]
    exact languageClass_inj
  · next hnone =>
    simp [hnone, Hast.hasClass, Hast.classNames]

/-- Display math has the class of the language `math` only. -/
theorem hasClass_math :
    Hast.hasClass (Hast.onlyClasses ["language-math", "math-display"]) (languageClass language)
      = true ↔ language = "math" := by
  -- The class of a language begins with another letter than the second class of math.
  have hdisplay : languageClass language ≠ "math-display" := by
    intro h
    have hchars := congrArg (fun name : String => name.toList.head?) h
    simp [languageClass] at hchars
  have hmath : "language-math" = languageClass "math" := rfl
  rw [hasClass_onlyClasses, List.mem_pair, or_iff_left hdisplay, hmath]
  exact languageClass_inj

/-! ## Marking what was converted -/

/-- Marking leaves a text as it is. -/
theorem mark_text (value : String) (position : Option Position) (extra : Members Json) :
    mark language (.text value position extra) = .text value position extra := by
  rw [Diagram.mark_of_not_isBlock (by simp [IsBlock, blockText?]) rfl]
  rfl

/-- Marking leaves raw markup as it is. -/
theorem mark_raw (value : String) (position : Option Position) (extra : Members Json) :
    mark language (.raw value position extra) = .raw value position extra := by
  rw [Diagram.mark_of_not_isBlock (by simp [IsBlock, blockText?]) rfl]
  rfl

/-- Marking leaves a text of its value alone as it is. -/
theorem mark_plain (value : String) : mark language (.plain value) = .plain value :=
  mark_text value none []

/-- A root is no block, so its children are marked. -/
theorem mark_root (children : List Hast.Node) (position : Option Position) (extra : Members Json) :
    mark language (.root children position extra)
      = .root (children.map (mark language)) position extra := by
  rw [Diagram.mark_of_not_isBlock (by simp [IsBlock, blockText?]) rfl]
  rfl

/-- An element that is not a `pre` is marked by marking its children. -/
theorem mark_tag {tagName : String} (hname : tagName ≠ "pre") (properties : Hast.Properties)
    (children : List Hast.Node) (position : Option Position) :
    mark language (.tag tagName properties children position)
      = .tag tagName properties (children.map (mark language)) position := by
  rw [Hast.Node.tag, Diagram.mark_of_not_isBlock (Diagram.not_isBlock_of_tagName hname) rfl]
  rfl

/-- A block of code becomes a marker if it has the class of the language. -/
theorem mark_codeBlock (language : String) (properties : Hast.Properties) (content : String)
    (position : Option Position) :
    mark language (codeBlock properties content position) =
      if Hast.hasClass properties (languageClass language) then marker language content
      else codeBlock properties content position := by
  by_cases hclass : Hast.hasClass properties (languageClass language)
  · have htext : blockText? language (codeBlock properties content position) = some content := by
      simp [codeBlock, element, Hast.Node.tag, Hast.Node.plain, blockText?, hclass,
        Hast.Node.textContentAll, Hast.Node.textContent]
    rw [Diagram.mark_of_blockText? htext, if_pos hclass]
  · have hblock : ¬ IsBlock language (codeBlock properties content position) := by
      simp [codeBlock, element, Hast.Node.tag, IsBlock, blockText?, hclass]
    rw [Diagram.mark_of_not_isBlock hblock rfl, if_neg hclass]
    -- The search goes on to the `code` and the text in it, which stay as they are.
    simp only [codeBlock, element, Hast.Node.childList_tag, List.map_cons, List.map_nil]
    rw [mark_tag (by decide), List.map_cons, mark_plain]
    rfl

/-- An element without elements in it is kept. -/
theorem mark_tag_texts {tagName : String} (hname : tagName ≠ "pre") (properties : Hast.Properties)
    (values : List String) (position : Option Position) :
    mark language (.tag tagName properties (values.map .plain) position)
      = .tag tagName properties (values.map .plain) position := by
  rw [mark_tag hname, List.map_map]
  congr 1
  exact List.map_congr_left fun value _ => mark_plain value

/-- Marking goes along with what the conversion puts around nodes. -/
theorem around_mark (depths : List Nat) :
    Around depths fun node marked => mark language node = marked where
  plain := mark_plain
  checkbox checked := mark_tag_texts (by decide) _ [] _
  tag := by
    intro tagName properties children children' position hwrapper h
    rw [mark_tag hwrapper.ne_pre]
    rw [← List.forall₂_map_left_iff, List.forall₂_eq_eq_eq] at h
    rw [h]

/-- **The rule for leaves marks what is marked afterwards, and nothing else.** -/
theorem related_leaf (language : String) (options : ConversionOptions) :
    RulesRelated (fun node marked => mark language node = marked) (leaf options)
      (markedLeaf language options) := by
  intro position kind
  have hself {node : Hast.Node} (h : mark language node = node) :
      LoggedRelated (Forall₂ fun node marked => mark language node = marked) (.plain [node])
        (.plain [node]) := ⟨related_singleton h, rfl⟩
  cases kind with
  | code value lang info =>
    have hblock := mark_codeBlock language (codeProperties lang) (codeText value) position
    simp only [hasClass_codeProperties] at hblock
    simp only [leaf, markedLeaf]
    split
    · next hlang => exact ⟨related_singleton (by rw [hblock, if_pos hlang]), rfl⟩
    · next hlang => exact ⟨related_singleton (by rw [hblock, if_neg hlang]), rfl⟩
  | math value info =>
    have hblock := mark_codeBlock language
      (Hast.onlyClasses ["language-math", "math-display"]) value position
    simp only [hasClass_math] at hblock
    simp only [leaf, markedLeaf]
    split
    · next hlang => exact ⟨related_singleton (by rw [hblock, if_pos hlang]), rfl⟩
    · next hlang => exact ⟨related_singleton (by rw [hblock, if_neg hlang]), rfl⟩
  | text value => exact hself (mark_text value position [])
  | inlineCode value => exact hself (mark_tag_texts (by decide) _ [_] _)
  | inlineMath value => exact hself (mark_tag_texts (by decide) _ [_] _)
  | html value =>
    simp only [leaf, markedLeaf]
    split
    · exact hself (mark_raw value position [])
    · exact ⟨.nil, rfl⟩
  | lineBreak =>
    exact ⟨.cons (mark_tag_texts (by decide) _ [] _) (related_singleton (mark_plain _)), rfl⟩
  | thematicBreak => exact hself (mark_tag_texts (by decide) _ [] _)
  | image url alt title => exact hself (mark_tag_texts (by decide) _ [] _)
  -- All other leaves are left out by both rules, with the same record.
  | _ => exact ⟨.nil, rfl⟩

/-! ## Whole trees -/

/-- A first word is not empty and has no blanks. -/
theorem ne_empty_and_not_isBlank_of_firstWord? {text word : String}
    (h : Text.firstWord? text = some word) :
    word ≠ "" ∧ ∀ c ∈ word.toList, Text.isBlank c = false := by
  unfold Text.firstWord? at h
  generalize hword :
    (text.toList.dropWhile Text.isBlank).takeWhile (fun c => !Text.isBlank c) = chars at h
  cases chars with
  | nil => cases h
  | cons first rest =>
    cases h
    refine ⟨by simp, fun c hc => ?_⟩
    rw [String.toList_ofList, ← hword] at hc
    simpa using List.mem_takeWhile_imp hc

/-- No code is in a language that is empty or has blanks in it. -/
theorem markedLeaf_of_blank (options : ConversionOptions)
    (h : language = "" ∨ ∃ c ∈ language.toList, Text.isBlank c = true) :
    markedLeaf language options = leaf options := by
  have hword (lang : Option String) : lang.bind Text.firstWord? ≠ some language := by
    intro heq
    obtain ⟨text, _, htext⟩ := Option.bind_eq_some_iff.mp heq
    obtain ⟨hne, hblank⟩ := ne_empty_and_not_isBlank_of_firstWord? htext
    rcases h with rfl | ⟨c, hc, hcblank⟩
    · exact hne rfl
    · rw [hblank c hc] at hcblank
      cases hcblank
  -- `math` is a word, so it would be its own first word.
  have hmath : language ≠ "math" := by
    rintro rfl
    exact hword (some "math") rfl
  funext position kind
  cases kind with
  | code value lang info => exact if_neg (hword lang)
  | math value info => exact if_neg hmath
  | _ => rfl

/-- **Marking the blocks of a language in what was converted is the same as converting code in the
language to markers.** -/
theorem map_mark_toHast (language : String) (options : ConversionOptions) (tree : Mdast.Node) :
    (tree.toHast options).map (mark language) = tree.toHastBy (markedLeaf language options) := by
  obtain ⟨children, children', position, hrelated, hvalue, hvalue', hlog⟩ :=
    related_toHastBy (around_mark tree.headingDepths) (related_leaf language options)
  rw [← List.forall₂_map_left_iff, List.forall₂_eq_eq_eq] at hrelated
  rw [Mdast.Node.toHast, Logged.map, hvalue, mark_root, hrelated, ← hvalue', hlog]

/-- **Marking after the conversion is converting code in the language to markers, and a language
that is empty or has blanks in it has no code.** -/
theorem toHast_marked (language : String) (options : ConversionOptions) (tree : Mdast.Node) :
    (tree.toHast options).map (mark language) = tree.toHastBy (markedLeaf language options) ∧
    ((language = "" ∨ ∃ c ∈ language.toList, Text.isBlank c = true) →
      mark language (tree.toHast options).value = (tree.toHast options).value) := by
  refine ⟨map_mark_toHast language options tree, fun hblank => ?_⟩
  have h := map_mark_toHast language options tree
  rw [markedLeaf_of_blank options hblank] at h
  exact congrArg Logged.value h

/-- A quoted block of code becomes a marker, and stays what it is without a language to look for. -/
theorem toHast_marked_quoted :
    let code : Mdast.Leaf := .code "a-->b" (some "mermaid wide") none
    let tree : Mdast.Node := .branch .root [.branch .blockquote [.leaf code none] none] none
    ((tree.toHast {}).map (mark "mermaid")).value
      = .root [element "blockquote" [lineFeed, marker "mermaid" "a-->b\n", lineFeed] none] none [] ∧
    mark "" (tree.toHast {}).value = (tree.toHast {}).value := by
  intro code tree
  refine ⟨?_, (toHast_marked "" {} tree).2 (.inl rfl)⟩
  rw [(toHast_marked "mermaid" {} tree).1]
  rfl

end Hypermark.Conversion
