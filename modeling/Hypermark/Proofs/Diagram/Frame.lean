import Hypermark.Proofs.Diagram.Search

/-!
# What marking leaves alone

At a path with no block above it, the marked tree has the marked node (`at?_mark`).  So a node that is
no block and has none above it is kept up to its children, of which there are as many as before
(`Kept`), an outermost block gives way to its marker, and the marked tree has no other nodes than
these and the texts of the markers (`exists_of_at?_mark`).
-/

namespace Hypermark.Diagram

open Hast

variable {language : String} {tree : Node}

/-! ## Paths without a block above -/

/-- No node above the end of the path is a block. -/
def NoBlockAbove (language : String) (tree : Node) (path : List Nat) : Prop :=
  ∀ above, above <+: path → above ≠ path → ∀ node, tree.at? above = some node →
    ¬ IsBlock language node

/-- Nothing is above the root of a tree. -/
theorem noBlockAbove_nil : NoBlockAbove language tree [] :=
  fun _ hprefix hne => absurd (List.prefix_nil.mp hprefix) hne

/-- Above the end of a path are the tree itself and what is above it in the child. -/
theorem noBlockAbove_cons {i : Nat} {path : List Nat} :
    NoBlockAbove language tree (i :: path) ↔
      ¬ IsBlock language tree ∧
      ∀ child, tree.childList[i]? = some child → NoBlockAbove language child path := by
  constructor
  · intro h
    refine ⟨h [] List.nil_prefix (List.cons_ne_nil i path).symm tree tree.at?_nil, ?_⟩
    intro child hchild above hprefix hne node hnode
    refine h (i :: above) ((List.cons_prefix_cons).mpr ⟨rfl, hprefix⟩) (by simpa using hne) node ?_
    rw [Node.at?_cons, hchild, Option.bind_some, hnode]
  · rintro ⟨hhere, hbelow⟩ above hprefix hne node hnode
    rcases List.prefix_cons_iff.mp hprefix with rfl | ⟨rest, rfl, hrest⟩
    · rw [Node.at?_nil, Option.some.injEq] at hnode
      rwa [← hnode]
    · rw [Node.at?_cons, Option.bind_eq_some_iff] at hnode
      obtain ⟨child, hchild, hnode⟩ := hnode
      exact hbelow child hchild rest hrest (by simpa using hne) node hnode

/-! ## The marked node at a path -/

/-- The children of what is no block are marked one by one. -/
theorem childList_mark {node : Node} (h : ¬ IsBlock language node) :
    (mark language node).childList = node.childList.map (mark language) := by
  rw [mark]
  cases nodeSearch language node with
  | block content hblock _ => exact absurd (by simp [IsBlock, hblock]) h
  | kept value hnode hmark =>
    subst hnode
    rw [hmark]
    rfl
  | searched kind _ _ hmark =>
    rw [hmark]
    cases node <;> rfl

/-- **At a path with no block above it, the marked tree has the marked node.** -/
theorem at?_mark {path : List Nat} (h : NoBlockAbove language tree path) :
    (mark language tree).at? path = (tree.at? path).map (mark language) := by
  induction path generalizing tree with
  | nil => rw [Node.at?_nil, Node.at?_nil, Option.map_some]
  | cons i path ih =>
    obtain ⟨hhere, hbelow⟩ := noBlockAbove_cons.mp h
    rw [Node.at?_cons, Node.at?_cons, childList_mark hhere, List.getElem?_map]
    cases hchild : tree.childList[i]? with
    | none => rfl
    | some child => exact ih (hbelow child hchild)

/-- The node is the other one up to its children, and has as many of them; an opaque node stays
opaque. -/
inductive Kept : Node → Node → Prop
  | root {children new : List Node} (position : Option Position) (extra : Members Json)
    (h : new.length = children.length) :
    Kept (.root children position extra) (.root new position extra)
  | element (tagName : String) (properties : Properties) {children new : List Node}
    (position : Option Position) (extra : Members Json) (h : new.length = children.length) :
    Kept (.element tagName properties children position extra)
      (.element tagName properties new position extra)
  | text (value : String) (position : Option Position) (extra : Members Json) :
    Kept (.text value position extra) (.text value position extra)
  | comment (value : String) (position : Option Position) (extra : Members Json) :
    Kept (.comment value position extra) (.comment value position extra)
  | raw (value : String) (position : Option Position) (extra : Members Json) :
    Kept (.raw value position extra) (.raw value position extra)
  | other (value new : Json) : Kept (.other value) (.other new)

/-- What is no block is kept. -/
theorem kept_mark {node : Node} (h : ¬ IsBlock language node) : Kept node (mark language node) := by
  rw [mark]
  cases nodeSearch language node with
  | block content hblock _ => exact absurd (by simp [IsBlock, hblock]) h
  | kept value hnode hmark =>
    subst hnode
    rw [hmark]
    exact .other value _
  | searched kind hkind _ hmark =>
    rw [hmark]
    cases node with
    | root => exact .root _ _ (List.length_map _)
    | element => exact .element _ _ _ _ (List.length_map _)
    | text => exact .text _ _ _
    | comment => exact .comment _ _ _
    | raw => exact .raw _ _ _
    | other => cases hkind

/-- The only node below a marker is its text. -/
theorem at?_marker_cons {content : String} {i : Nat} {path : List Nat} {node : Node}
    (h : (marker language content).at? (i :: path) = some node) :
    i = 0 ∧ path = [] ∧ node = .plain content := by
  rw [Node.at?_cons, marker, Node.childList_tag, Option.bind_eq_some_iff] at h
  obtain ⟨child, hchild, hnode⟩ := h
  obtain ⟨rfl, hi⟩ : .plain content = child ∧ i = 0 := by
    cases i with
    | zero => exact ⟨Option.some.inj hchild, rfl⟩
    | succ i => cases hchild
  cases path with
  | nil => exact ⟨hi, rfl, (Option.some.inj hnode).symm⟩
  | cons j path => cases hnode

/-- **Every node of the marked tree is at a path with no block above it in the tree, or is the text
of a marker.** -/
theorem exists_of_at?_mark {path : List Nat} {new : Node}
    (h : (mark language tree).at? path = some new) :
    (NoBlockAbove language tree path ∧ ∃ node, tree.at? path = some node) ∨
    ∃ above block content, path = above ++ [0] ∧ NoBlockAbove language tree above ∧
      tree.at? above = some block ∧ blockText? language block = some content ∧
      new = .plain content := by
  induction path generalizing tree with
  | nil => exact .inl ⟨noBlockAbove_nil, tree, tree.at?_nil⟩
  | cons i path ih =>
    by_cases hblock : IsBlock language tree
    · obtain ⟨content, hcontent⟩ := Option.isSome_iff_exists.mp hblock
      rw [mark_of_blockText? hcontent] at h
      obtain ⟨rfl, rfl, rfl⟩ := at?_marker_cons h
      exact .inr ⟨[], tree, content, rfl, noBlockAbove_nil, tree.at?_nil, hcontent, rfl⟩
    · rw [Node.at?_cons, childList_mark hblock, List.getElem?_map, Option.bind_eq_some_iff] at h
      obtain ⟨marked, hmarked, hnew⟩ := h
      obtain ⟨child, hchild, rfl⟩ := Option.map_eq_some_iff.mp hmarked
      -- Above a place in the child there is nothing more than the tree, which is no block.
      have hstep {above : List Nat} (habove : NoBlockAbove language child above) :
          NoBlockAbove language tree (i :: above) := by
        refine noBlockAbove_cons.mpr ⟨hblock, fun other hother => ?_⟩
        cases hother.symm.trans hchild
        exact habove
      have hat (above : List Nat) : tree.at? (i :: above) = child.at? above := by
        rw [Node.at?_cons, hchild, Option.bind_some]
      rcases ih hnew with ⟨habove, node, hnode⟩ | ⟨above, block, content, rfl, habove, hfound, htext⟩
      · exact .inl ⟨hstep habove, node, by rw [hat, hnode]⟩
      · exact .inr ⟨i :: above, block, content, rfl, hstep habove, by rw [hat, hfound], htext⟩

/-- A tree without blocks and opaque nodes is marked as it is. -/
theorem mark_eq_self_of_everywhere
    (h : tree.Everywhere fun node => ¬ IsBlock language node ∧ ∀ value, node ≠ .other value) :
    mark language tree = tree := by
  induction tree using Node.induction_children with
  | step node ih =>
    have hchildren : node.childList.map (mark language) = node.childList :=
      map_eq_self fun child hchild => ih child hchild (h.child child hchild)
    obtain ⟨hblock, hother⟩ := h.here
    rw [mark]
    cases nodeSearch language node with
    | block content hfound _ => exact absurd (by simp [IsBlock, hfound]) hblock
    | kept value hnode _ => exact absurd hnode (hother value)
    | searched kind _ _ hmark => rw [hmark, hchildren, setChildren_childList]

/-- **What is no block and in none is kept, an outermost block becomes its marker, and there is
nothing else in the marked tree.** -/
theorem mark_frame (language : String) (tree : Node) :
    (∀ path node, tree.at? path = some node → NoBlockAbove language tree path →
      ¬ IsBlock language node →
      ∃ new, (mark language tree).at? path = some new ∧ Kept node new) ∧
    (∀ path properties codeProperties content position extra codePosition codeExtra,
      tree.at? path = some (.element "pre" properties
        [.element "code" codeProperties content codePosition codeExtra] position extra) →
      hasClass codeProperties ("language-" ++ language) → NoBlockAbove language tree path →
      (mark language tree).at? path = some (.element "pre" [("className", .list [language])]
        [.text (Node.textContentAll content) none []] none [])) ∧
    (∀ path new, (mark language tree).at? path = some new →
      (NoBlockAbove language tree path ∧ ∃ node, tree.at? path = some node) ∨
      ∃ above block content, path = above ++ [0] ∧ NoBlockAbove language tree above ∧
        tree.at? above = some block ∧ blockText? language block = some content ∧
        new = .text content none []) ∧
    (tree.Everywhere (fun node => ¬ IsBlock language node ∧ ∀ value, node ≠ .other value) →
      mark language tree = tree) := by
  refine ⟨fun path node hnode habove hblock => ?_, ?_, fun path new hnew => exists_of_at?_mark hnew,
    mark_eq_self_of_everywhere⟩
  · exact ⟨mark language node, by rw [at?_mark habove, hnode, Option.map_some], kept_mark hblock⟩
  · intro path properties codeProperties content position extra codePosition codeExtra hnode hclass
      habove
    have htext : blockText? language (.element "pre" properties
        [.element "code" codeProperties content codePosition codeExtra] position extra)
        = some (Node.textContentAll content) := by
      rw [blockText?, if_pos ⟨rfl, rfl, hclass⟩]
    rw [at?_mark habove, hnode, Option.map_some, mark_of_blockText? htext]
    rfl

/-- Of a block in the code of a block only the text is left, and the paragraph in front is kept. -/
theorem mark_frame_nested :
    let block (content : List Node) : Node :=
      .tag "pre" [] [.tag "code" (onlyClasses ["language-mermaid"]) content none] none
    let paragraph : Node := .tag "p" [] [.plain "x"] none
    let tree : Node := .root [paragraph, block [block [.plain "a"], .plain "b"]] none []
    (∃ new, (mark "mermaid" tree).at? [0] = some new ∧ Kept paragraph new) ∧
    (mark "mermaid" tree).at? [1] = some (.element "pre" [("className", .list ["mermaid"])]
      [.text "ab" none []] none []) := by
  intro block paragraph tree
  have habove (i : Nat) : NoBlockAbove "mermaid" tree [i] :=
    noBlockAbove_cons.mpr ⟨by simp [tree, IsBlock, blockText?], fun _ _ => noBlockAbove_nil⟩
  obtain ⟨hkept, hblock, -⟩ := mark_frame "mermaid" tree
  exact ⟨hkept [0] paragraph rfl (habove 0) (not_isBlock_of_tagName (by decide)),
    hblock [1] _ _ _ _ _ _ _ rfl (by decide) (habove 1)⟩

end Hypermark.Diagram
