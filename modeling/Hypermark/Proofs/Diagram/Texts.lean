import Hypermark.Proofs.Diagram.Frame
import Hypermark.Proofs.Hast.Codec
import Mathlib.Data.List.Flatten

/-!
# What marking does to the texts of a tree

The text that a marker takes over from a block does not include what lies below a root in its code,
although the children of a root are walked everywhere else.  So marking never adds to the texts of a
tree, and it keeps all of them exactly when every outermost block keeps its own (`texts_mark_eq_iff`);
that is so whenever the tree has no root below another node.
-/

namespace Hypermark.Hast.Node

mutual

/-- The values of all texts at or below a node in document order, concatenated. -/
def texts : Node → String
  | root children .. => textsAll children
  | element _ _ children .. => textsAll children
  | text value .. => value
  | _ => ""

/-- The values of all texts in a list of trees, concatenated. -/
def textsAll : List Node → String
  | [] => ""
  | node :: nodes => node.texts ++ textsAll nodes

end

/-- The texts of a list of trees are those of each, one behind the other. -/
theorem toList_textsAll (nodes : List Node) :
    (textsAll nodes).toList = nodes.flatMap fun node => node.texts.toList := by
  induction nodes with
  | nil => rfl
  | cons node nodes ih => rw [textsAll, String.toList_append, ih, List.flatMap_cons]

mutual

/-- The text of a node is part of the texts in it. -/
theorem textContent_sublist : (node : Node) → node.textContent.toList.Sublist node.texts.toList
  | element _ _ children .. => by
    rw [textContent, texts]
    exact textContentAll_sublist children
  | text value .. => List.Sublist.refl _
  | root .. | comment .. | raw .. | other _ => List.nil_sublist _

/-- So it is for a list of nodes. -/
theorem textContentAll_sublist :
    (nodes : List Node) → (textContentAll nodes).toList.Sublist (textsAll nodes).toList
  | [] => List.Sublist.refl _
  | node :: nodes => by
    rw [textContentAll, textsAll, String.toList_append, String.toList_append]
    exact (textContent_sublist node).append (textContentAll_sublist nodes)

end

/-- The node is no root. -/
def NotRoot (node : Node) : Prop := node.kind? ≠ some .root

mutual

/-- Without roots below, the text of a node is all the text in it. -/
theorem textContent_eq_texts :
    (node : Node) → node.Everywhere NotRoot → node.textContent = node.texts
  | root .., h => absurd rfl h.here
  | element _ _ children .., h => by
    rw [textContent, texts]
    exact textContentAll_eq_textsAll children h.child
  | text .., _ | comment .., _ | raw .., _ | other _, _ => rfl

/-- So it is for a list of nodes. -/
theorem textContentAll_eq_textsAll :
    (nodes : List Node) → (∀ node ∈ nodes, node.Everywhere NotRoot) →
    textContentAll nodes = textsAll nodes
  | [], _ => rfl
  | node :: nodes, h => by
    obtain ⟨hnode, hnodes⟩ := List.forall_mem_cons.mp h
    rw [textContentAll, textsAll, textContent_eq_texts node hnode,
      textContentAll_eq_textsAll nodes hnodes]

end

/-- What holds everywhere in a tree holds at every path. -/
theorem Everywhere.at? {p : Node → Prop} {tree node : Node} (h : tree.Everywhere p)
    {path : List Nat} (hnode : tree.at? path = some node) : node.Everywhere p := by
  induction path generalizing tree with
  | nil =>
    rw [at?_nil, Option.some.injEq] at hnode
    rwa [← hnode]
  | cons i path ih =>
    rw [at?_cons, Option.bind_eq_some_iff] at hnode
    obtain ⟨child, hchild, hnode⟩ := hnode
    exact ih (h.child child (List.mem_of_getElem? hchild)) hnode

end Hypermark.Hast.Node

namespace Hypermark.Diagram

open Hast

variable {language : String} {tree : Node}

/-! ## Outermost blocks -/

/-- Every outermost block has all its texts in the text that its marker takes over. -/
def KeepsTexts (language : String) (tree : Node) : Prop :=
  ∀ path block content, NoBlockAbove language tree path → tree.at? path = some block →
    blockText? language block = some content → content = block.texts

/-- A block keeps its texts if the text found for it is all of them. -/
theorem keepsTexts_of_blockText? {content : String} (h : blockText? language tree = some content) :
    KeepsTexts language tree ↔ content = tree.texts := by
  constructor
  · intro hkeeps
    exact hkeeps [] tree content noBlockAbove_nil tree.at?_nil h
  · intro htexts path block found habove hblock hfound
    cases path with
    | nil =>
      rw [Node.at?_nil, Option.some.injEq] at hblock
      subst hblock
      rw [← htexts, ← Option.some.inj (hfound.symm.trans h)]
    | cons => exact absurd (by simp [IsBlock, h]) (noBlockAbove_cons.mp habove).1

/-- Any other node keeps its texts if its children do. -/
theorem keepsTexts_of_not_isBlock (h : ¬ IsBlock language tree) :
    KeepsTexts language tree ↔ ∀ child ∈ tree.childList, KeepsTexts language child := by
  constructor
  · intro hkeeps child hchild path block content habove hblock hcontent
    obtain ⟨i, hi⟩ := List.mem_iff_getElem?.mp hchild
    refine hkeeps (i :: path) block content ?_ ?_ hcontent
    · refine noBlockAbove_cons.mpr ⟨h, fun other hother => ?_⟩
      cases hother.symm.trans hi
      exact habove
    · rw [Node.at?_cons, hi, Option.bind_some, hblock]
  · intro hkeeps path block content habove hblock hcontent
    cases path with
    | nil =>
      rw [Node.at?_nil, Option.some.injEq] at hblock
      exact absurd (by simp [IsBlock, hblock, hcontent]) h
    | cons i path =>
      rw [Node.at?_cons, Option.bind_eq_some_iff] at hblock
      obtain ⟨child, hchild, hblock⟩ := hblock
      exact hkeeps child (List.mem_of_getElem? hchild) path block content
        ((noBlockAbove_cons.mp habove).2 child hchild) hblock hcontent

/-! ## Texts after marking -/

/-- The texts of a marker are what it was made with. -/
theorem texts_marker (content : String) : (marker language content).texts = content := by
  simp [marker, Node.tag, Node.plain, Node.texts, Node.textsAll]

/-- The texts of a block are those in its code, and its marker takes over part of them. -/
theorem sublist_texts_of_blockText? {content : String}
    (h : blockText? language tree = some content) : content.toList.Sublist tree.texts.toList := by
  obtain ⟨_, _, _, _, codeProperties, children, _, _, rfl, rfl, hclass⟩ :=
    isBlock_iff.mp (show IsBlock language tree by simp [IsBlock, h])
  rw [blockText?, if_pos ⟨rfl, rfl, hclass⟩, Option.some.injEq] at h
  rw [← h, Node.texts, Node.textsAll, Node.texts, Node.textsAll, String.append_empty]
  exact Node.textContentAll_sublist children

/-- What is no block has the texts of its children, if it has any. -/
theorem texts_of_not_isBlock (h : ¬ IsBlock language tree) :
    (mark language tree).texts = tree.texts ∧ tree.childList = [] ∨
    (mark language tree).texts = Node.textsAll (tree.childList.map (mark language)) ∧
      tree.texts = Node.textsAll tree.childList := by
  rw [mark]
  cases nodeSearch language tree with
  | block content hblock _ => exact absurd (by simp [IsBlock, hblock]) h
  | kept value hnode hmark =>
    subst hnode
    rw [hmark]
    exact .inl ⟨rfl, rfl⟩
  | searched kind hkind _ hmark =>
    rw [hmark]
    cases tree with
    | root | element => exact .inr ⟨rfl, rfl⟩
    | text | comment | raw => exact .inl ⟨rfl, rfl⟩
    | other => cases hkind

/-- **Marking adds nothing to the texts of a tree.** -/
theorem texts_mark_sublist (tree : Node) :
    (mark language tree).texts.toList.Sublist tree.texts.toList := by
  induction tree using Node.induction_children with
  | step tree ih =>
    by_cases hblock : IsBlock language tree
    · obtain ⟨content, hcontent⟩ := Option.isSome_iff_exists.mp hblock
      rw [mark_of_blockText? hcontent, texts_marker]
      exact sublist_texts_of_blockText? hcontent
    · rcases texts_of_not_isBlock hblock with ⟨hsame, -⟩ | ⟨hmarked, htexts⟩
      · rw [hsame]
      · rw [hmarked, htexts, Node.toList_textsAll, Node.toList_textsAll, List.flatMap_map]
        exact List.Sublist.flatMap_right _ ih

/-- Lists that are put together from parts are equal only if their parts are, when every part of one
is part of that of the other. -/
theorem flatMap_eq_flatMap_iff {α β : Type} {items : List α} {f g : α → List β}
    (h : ∀ item ∈ items, (f item).Sublist (g item)) :
    items.flatMap f = items.flatMap g ↔ ∀ item ∈ items, f item = g item := by
  refine ⟨fun heq => ?_, fun heq => List.flatMap_congr heq⟩
  induction items with
  | nil => simp
  | cons item items ih =>
    obtain ⟨hitem, hitems⟩ := List.forall_mem_cons.mp h
    rw [List.flatMap_cons, List.flatMap_cons] at heq
    -- No part is longer than its counterpart, so none is shorter either.
    have hle := hitem.length_le
    have hrest := (List.Sublist.flatMap_right items hitems).length_le
    have hlength := congrArg List.length heq
    rw [List.length_append, List.length_append] at hlength
    have hfirst : f item = g item := hitem.eq_of_length (by omega)
    rw [hfirst, List.append_cancel_left_eq] at heq
    exact List.forall_mem_cons.mpr ⟨hfirst, ih hitems heq⟩

/-- **Marking keeps the texts of a tree exactly when it keeps those of the outermost blocks.** -/
theorem texts_mark_eq_iff : (mark language tree).texts = tree.texts ↔ KeepsTexts language tree := by
  induction tree using Node.induction_children with
  | step tree ih =>
    by_cases hblock : IsBlock language tree
    · obtain ⟨content, hcontent⟩ := Option.isSome_iff_exists.mp hblock
      rw [mark_of_blockText? hcontent, texts_marker, keepsTexts_of_blockText? hcontent]
    · rw [keepsTexts_of_not_isBlock hblock]
      rcases texts_of_not_isBlock hblock with ⟨hsame, hnone⟩ | ⟨hmarked, htexts⟩
      · simp [hsame, hnone]
      · rw [hmarked, htexts, ← String.toList_inj, Node.toList_textsAll, Node.toList_textsAll,
          List.flatMap_map, flatMap_eq_flatMap_iff fun child _ => texts_mark_sublist child]
        refine forall₂_congr fun child hchild => ?_
        rw [String.toList_inj]
        exact ih child hchild

/-- A tree without a root below another node keeps its texts. -/
theorem keepsTexts_of_notRoot (h : ∀ child ∈ tree.childList, child.Everywhere Node.NotRoot) :
    KeepsTexts language tree := by
  intro path block content _ hblock hcontent
  obtain ⟨_, _, _, _, codeProperties, children, _, _, rfl, rfl, hclass⟩ :=
    isBlock_iff.mp (show IsBlock language block by simp [IsBlock, hcontent])
  rw [blockText?, if_pos ⟨rfl, rfl, hclass⟩, Option.some.injEq] at hcontent
  have hcode : ∀ child ∈ children, child.Everywhere Node.NotRoot := by
    cases path with
    | nil =>
      rw [Node.at?_nil, Option.some.injEq] at hblock
      subst hblock
      exact (h _ List.mem_cons_self).child
    | cons i path =>
      rw [Node.at?_cons, Option.bind_eq_some_iff] at hblock
      obtain ⟨child, hchild, hblock⟩ := hblock
      have hblock := (h child (List.mem_of_getElem? hchild)).at? hblock
      exact (hblock.child _ List.mem_cons_self).child
  rw [← hcontent, Node.textContentAll_eq_textsAll children hcode, Node.texts, Node.textsAll,
    Node.texts, Node.textsAll, String.append_empty]

/-- **Marking keeps the texts of a tree if and only if every outermost block has all its texts in the
text of its code**, as it does in a tree without a root below another node. -/
theorem texts_mark (language : String) (tree : Node) :
    ((mark language tree).texts = tree.texts ↔ KeepsTexts language tree) ∧
    ((∀ child ∈ tree.childList, child.Everywhere Node.NotRoot) →
      (mark language tree).texts = tree.texts) :=
  ⟨texts_mark_eq_iff, fun h => texts_mark_eq_iff.mpr (keepsTexts_of_notRoot h)⟩

/-- The texts of code are kept in their order, those in an element of the code too. -/
theorem texts_mark_code :
    let code : Node := .tag "code" (onlyClasses ["language-mermaid"])
      [.plain "a", .tag "b" [] [.plain "-->"] none, .plain "b"] none
    let tree : Node := .root [.plain "x", .tag "pre" [] [code] none] none []
    (mark "mermaid" tree).at? [1] = some (marker "mermaid" "a-->b") ∧
    (mark "mermaid" tree).texts = tree.texts := by
  intro code tree
  have habove : NoBlockAbove "mermaid" tree [1] :=
    noBlockAbove_cons.mpr ⟨by simp [tree, IsBlock, blockText?], fun _ _ => noBlockAbove_nil⟩
  have hplain (value : String) : (Node.plain value).Everywhere Node.NotRoot :=
    Node.everywhere_of_childless rfl (by simp [Node.NotRoot, Node.plain, Node.kind?])
  have htag {tagName : String} {properties : Properties} {children : List Node}
      (h : ∀ child ∈ children, child.Everywhere Node.NotRoot) :
      (Node.tag tagName properties children none).Everywhere Node.NotRoot :=
    ⟨by simp [Node.NotRoot, Node.tag, Node.kind?], h⟩
  have hcode : code.Everywhere Node.NotRoot := by
    refine htag ?_
    simp only [List.forall_mem_cons]
    exact ⟨hplain "a", htag (List.forall_mem_singleton.mpr (hplain "-->")), hplain "b", by simp⟩
  refine ⟨?_, (texts_mark "mermaid" tree).2 ?_⟩
  · rw [at?_mark habove]
    exact congrArg some (mark_of_blockText? rfl)
  · simp only [tree, Node.childList_root, List.forall_mem_cons]
    exact ⟨hplain "x", htag (List.forall_mem_singleton.mpr hcode), by simp⟩

/-- A tree that is read from a text loses what lies below a root in the code of a block. -/
theorem texts_mark_root_in_code :
    let code : Node := .tag "code" (onlyClasses ["language-mermaid"])
      [.root [.plain "a"] none []] none
    let tree : Node := .tag "pre" [] [code] none
    Node.read tree.print = .ok tree ∧ tree.texts = "a" ∧ (mark "mermaid" tree).texts = "" := by
  intro code tree
  have hroot : (Node.root [.plain "a"] none []).Canonical :=
    ⟨extraFits_nil .root, List.forall_mem_singleton.mpr (Node.canonical_plain "a")⟩
  have hcode : code.Canonical :=
    Node.canonical_tag (propertiesFit_onlyClasses _) (by simpa using hroot)
  have htree : tree.Canonical := Node.canonical_tag propertiesFit_nil (by simpa using hcode)
  have hwords : tree.written.Words := by
    simp [tree, code, Node.tag, Node.plain, Node.written, Node.rootMembers, Node.elementMembers,
      Node.leafMembers, propertiesJson, onlyClasses, PropertyValue.toJson, Json.words_obj,
      Json.words_arr]
  have hmark : mark "mermaid" tree = marker "mermaid" "" := mark_of_blockText? rfl
  refine ⟨Node.read_print htree hwords (by decide), rfl, ?_⟩
  rw [hmark, texts_marker]

end Hypermark.Diagram
