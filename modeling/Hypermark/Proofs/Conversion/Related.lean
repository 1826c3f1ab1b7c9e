import Hypermark.Proofs.Conversion.Made

/-!
# Two conversions side by side

The conversion looks at leaves only to convert them, and at what it has converted not at all: where
something is put and what is put around it depends on the branches of the Markdown tree.  So two
rules for leaves that give related hypertext give related hypertext for the whole tree
(`related_toHastBy`), with the same records.

A relation has to go along with what the conversion puts around nodes (`Around`): wrappers,
checkboxes and line feeds.  A property of nodes that goes along with them holds of all that is
converted (`forall_toHast`).
-/

namespace Hypermark.Conversion

open Hast (Properties)
open List (Forall₂)

/-! ## Relations -/

/-- The relation holds between texts that are put between nodes, between checkboxes, and between equal
wrappers around related nodes. -/
structure Around (depths : List Nat) (R : Hast.Node → Hast.Node → Prop) : Prop where
  plain (value : String) : R (.plain value) (.plain value)
  checkbox (checked : Bool) : R (checkbox checked) (checkbox checked)
  tag {tagName : String} {properties : Properties} {children children' : List Hast.Node}
    (position : Option Position) (hwrapper : Wrapper depths tagName properties)
    (h : Forall₂ R children children') :
    R (.tag tagName properties children position) (.tag tagName properties children' position)

/-- The values are related and the records are the same. -/
structure LoggedRelated {α : Type} (R : α → α → Prop) (x y : Logged α) : Prop where
  value : R x.value y.value
  log : x.log = y.log

section Logged

variable {α β : Type} {R : α → α → Prop} {S : β → β → Prop} {f g : α → β} {x y : Logged α}

/-- Related values are changed to related values, and the records stay the same. -/
theorem LoggedRelated.map (h : LoggedRelated R x y) (hf : ∀ {a b}, R a b → S (f a) (g b)) :
    LoggedRelated S (x.map f) (y.map g) :=
  ⟨hf h.value, h.log⟩

/-- Nothing is related to nothing. -/
theorem loggedRelated_nil : LoggedRelated (Forall₂ R) (.plain []) (.plain []) := ⟨.nil, rfl⟩

/-- Related lists are put behind related lists. -/
theorem LoggedRelated.append {x y x' y' : Logged (List α)} (h : LoggedRelated (Forall₂ R) x y)
    (h' : LoggedRelated (Forall₂ R) x' y') :
    LoggedRelated (Forall₂ R) (x.append x') (y.append y') := by
  refine ⟨?_, ?_⟩
  · exact List.rel_append h.value h'.value
  · rw [Logged.append, Logged.append, h.log, h'.log]

end Logged

/-- Parts of an item are related if they are paragraphs around related nodes, or related nodes. -/
inductive PartRelated (R : Hast.Node → Hast.Node → Prop) : ItemPart → ItemPart → Prop
  | paragraph {children children' : List Hast.Node} {position : Option Position}
    (h : Forall₂ R children children') :
    PartRelated R ⟨true, element "p" children position⟩ ⟨true, element "p" children' position⟩
  | other {node node' : Hast.Node} (h : R node node') : PartRelated R ⟨false, node⟩ ⟨false, node'⟩

variable {depths : List Nat} {R : Hast.Node → Hast.Node → Prop}

/-- An element without properties is a wrapper too. -/
theorem Around.element (hR : Around depths R) {tagName : String}
    {children children' : List Hast.Node} (position : Option Position)
    (hname : tagName ∈ bareTags) (h : Forall₂ R children children') :
    R (element tagName children position) (element tagName children' position) :=
  hR.tag position (.bare hname) h

/-- Lists of a single node are related if the nodes are. -/
theorem related_singleton {node node' : Hast.Node} (h : R node node') : Forall₂ R [node] [node'] :=
  .cons h .nil

/-! ## Line feeds -/

/-- Line feeds between related nodes leave them related. -/
theorem Around.separate (hR : Around depths R) {nodes nodes' : List Hast.Node}
    (h : Forall₂ R nodes nodes') :
    Forall₂ R (separate nodes) (separate nodes') := by
  unfold Conversion.separate
  induction h with
  | nil => exact .nil
  | cons hfirst hrest ih =>
    cases hrest with
    | nil => exact .cons hfirst .nil
    | cons => exact .cons hfirst (.cons (hR.plain "\n") ih)

/-- So do line feeds between and around them. -/
theorem Around.separateLoose (hR : Around depths R) {nodes nodes' : List Hast.Node}
    (h : Forall₂ R nodes nodes') : Forall₂ R (separateLoose nodes) (separateLoose nodes') := by
  have hfeed := hR.plain "\n"
  refine .cons hfeed (List.rel_append (hR.separate h) ?_)
  cases h with
  | nil => exact .nil
  | cons => exact related_singleton hfeed

/-! ## Items -/

/-- The checkbox goes to the same place in related parts. -/
theorem related_addCheckbox (hR : Around depths R) (checked : Bool) {parts parts' : List ItemPart}
    (h : Forall₂ (PartRelated R) parts parts') :
    Forall₂ (PartRelated R) (addCheckbox (checkbox checked) parts)
      (addCheckbox (checkbox checked) parts') := by
  have hbox : R (checkbox checked) (checkbox checked) := hR.checkbox checked
  have hown : PartRelated R ⟨true, element "p" [checkbox checked] none⟩
      ⟨true, element "p" [checkbox checked] none⟩ := .paragraph (related_singleton hbox)
  -- Related parts are paragraphs alike, so the checkbox goes to the same place in both.
  cases h with
  | nil => exact .cons hown .nil
  | cons hfirst hrest =>
    cases hfirst with
    | other hnode => exact .cons hown (.cons (.other hnode) hrest)
    | paragraph hchildren =>
      refine .cons (.paragraph ?_) hrest
      cases hchildren with
      | nil => exact related_singleton hbox
      | cons hchild hchildren => exact .cons hbox (.cons (hR.plain " ") (.cons hchild hchildren))

/-- Related parts become related nodes: either both give way to their children or none does. -/
theorem related_partNodes (hR : Around depths R) (loose : Bool) {part part' : ItemPart}
    (h : PartRelated R part part') : Forall₂ R (partNodes loose part) (partNodes loose part') := by
  cases h with
  | paragraph hchildren =>
    cases loose with
    | true => exact related_singleton (hR.element _ (by decide) hchildren)
    | false => exact hchildren
  | other hnode =>
    have hkept (node : Hast.Node) : partNodes loose ⟨false, node⟩ = [node] := by
      cases node <;> rfl
    rw [hkept, hkept]
    exact related_singleton hnode

/-- Of related parts both come from paragraphs, or neither does. -/
theorem PartRelated.isParagraph {part part' : ItemPart} (h : PartRelated R part part') :
    part.isParagraph = part'.isParagraph := by
  cases h <;> rfl

/-- The layout of an item depends on its paragraphs only, not on what is in them. -/
theorem related_layOut (hR : Around depths R) (loose first : Bool) {parts parts' : List ItemPart}
    (h : Forall₂ (PartRelated R) parts parts') :
    Forall₂ R (layOut loose first parts) (layOut loose first parts') := by
  have hfeed (condition : Bool) : Forall₂ R (if condition then [lineFeed] else [])
      (if condition then [lineFeed] else []) := by
    cases condition with
    | true => exact related_singleton (hR.plain "\n")
    | false => exact .nil
  induction h generalizing first with
  | nil => exact .nil
  | @cons part part' parts parts' hpart hparts ih =>
    have hempty : parts.isEmpty = parts'.isEmpty := by
      cases hparts <;> rfl
    rw [layOut, layOut, hpart.isParagraph, hempty]
    have hnodes := related_partNodes hR loose hpart
    exact List.rel_append (List.rel_append (List.rel_append (hfeed _) hnodes) (hfeed _)) (ih false)

/-- Items of related parts are related. -/
theorem related_itemElement (hR : Around depths R) (loose : Bool) (checked : Option Bool)
    (position : Option Position) {parts parts' : List ItemPart}
    (h : Forall₂ (PartRelated R) parts parts') :
    R (itemElement loose checked parts position) (itemElement loose checked parts' position) := by
  cases checked with
  | none => exact hR.element position (by decide) (related_layOut hR loose true h)
  | some checked =>
    exact hR.tag position .task (related_layOut hR loose true (related_addCheckbox hR checked h))

/-! ## Tables -/

/-- Tables of related rows are related. -/
theorem related_tableElement (hR : Around depths R) (position : Option Position)
    {rows rows' : List Hast.Node} (h : Forall₂ R rows rows') :
    R (tableElement rows position) (tableElement rows' position) := by
  refine hR.element position (by decide) (hR.separateLoose ?_)
  have hsection (tagName : String) (hname : tagName ∈ bareTags) {rows rows' : List Hast.Node}
      (h : Forall₂ R rows rows') :
      R (element tagName (separateLoose rows) none) (element tagName (separateLoose rows') none) :=
    hR.element none hname (hR.separateLoose h)
  cases h with
  | nil => exact .nil
  | cons hhead hbody =>
    have hthead := hsection "thead" (by decide) (related_singleton hhead)
    cases hbody with
    | nil => exact related_singleton hthead
    | cons hrow hrows =>
      exact .cons hthead (related_singleton (hsection "tbody" (by decide) (.cons hrow hrows)))

/-! ## Branches -/

/-- A branch makes related hypertext of related children. -/
theorem related_branch (hR : Around depths R) (kind : Mdast.Branch)
    (hdepths : kind.headingDepths ⊆ depths) (position : Option Position)
    {children children' : List Hast.Node} (h : Forall₂ R children children') :
    Forall₂ R (branch kind children position) (branch kind children' position) := by
  unfold branch
  split
  · exact hR.separate h
  · exact related_singleton (hR.element position (by decide) h)
  · next depth =>
    have hdepth : depth ∈ depths := hdepths List.mem_cons_self
    exact related_singleton (hR.tag position (.heading hdepth) h)
  · exact related_singleton (hR.element position (by decide) h)
  · exact related_singleton (hR.element position (by decide) h)
  · exact related_singleton (hR.element position (by decide) h)
  · exact related_singleton (hR.element position (by decide) (hR.separateLoose h))
  · next url title => exact related_singleton (hR.tag position (.link url title) h)
  · exact h

/-! ## Trees -/

/-- Related nodes are related as parts that come from no paragraph. -/
theorem related_map_other {nodes nodes' : List Hast.Node} (h : Forall₂ R nodes nodes') :
    Forall₂ (PartRelated R) (nodes.map (ItemPart.mk false)) (nodes'.map (ItemPart.mk false)) := by
  induction h with
  | nil => exact .nil
  | cons hnode _ ih => exact .cons (.other hnode) ih

/-- A paragraph is a branch of that kind. -/
theorem exists_of_isParagraph {tree : Mdast.Node} (h : tree.isParagraph = true) :
    ∃ children position, tree = .branch .paragraph children position := by
  unfold Mdast.Node.isParagraph at h
  split at h
  · exact ⟨_, _, rfl⟩
  · cases h

/-- A paragraph becomes a `p` around its children. -/
theorem node_paragraph (rule : LeafRule) (children : List Mdast.Node) (position : Option Position) :
    node rule (.branch .paragraph children position)
      = (nodes rule children).map fun children => [element "p" children position] := by
  rw [node.eq_def]
  rfl

section Trees

/-- The rules give related hypertext for every leaf. -/
def RulesRelated (R : Hast.Node → Hast.Node → Prop) (rule rule' : LeafRule) : Prop :=
  ∀ position kind, LoggedRelated (Forall₂ R) (rule position kind) (rule' position kind)

variable {rule rule' : LeafRule}

mutual

/-- Related rules give related hypertext for a node. -/
theorem related_node (hR : Around depths R) (hleaf : RulesRelated R rule rule') :
    (tree : Mdast.Node) → tree.headingDepths ⊆ depths →
    LoggedRelated (Forall₂ R) (node rule tree) (node rule' tree)
  | .leaf kind position, _ => by
    rw [node, node]
    exact hleaf position kind
  | .branch kind children position, hdepths => by
    rw [Mdast.Node.headingDepths] at hdepths
    obtain ⟨hkind, hchildren⟩ := List.append_subset.mp hdepths
    rw [node.eq_def, node.eq_def]
    dsimp only
    split
    · exact (related_listChildren hR hleaf _ children hchildren).map fun h => related_singleton
        (hR.tag position (.list _ _ _) (hR.separateLoose h))
    · exact (related_itemParts hR hleaf children hchildren).map fun h => related_singleton
        (related_itemElement hR _ _ position h)
    · exact (related_rows hR hleaf _ true children hchildren).map fun h => related_singleton
        (related_tableElement hR position h)
    · exact (related_nodes hR hleaf children hchildren).map (related_branch hR _ hkind position)

/-- A list of trees has related hypertext under both rules. -/
theorem related_nodes (hR : Around depths R) (hleaf : RulesRelated R rule rule') :
    (trees : List Mdast.Node) → Mdast.Node.headingDepthsAll trees ⊆ depths →
    LoggedRelated (Forall₂ R) (nodes rule trees) (nodes rule' trees)
  | [], _ => loggedRelated_nil
  | tree :: trees, hdepths => by
    obtain ⟨htree, htrees⟩ := List.append_subset.mp hdepths
    rw [nodes, nodes]
    exact (related_node hR hleaf tree htree).append (related_nodes hR hleaf trees htrees)

/-- So have the children of a list, laid out alike. -/
theorem related_listChildren (hR : Around depths R) (hleaf : RulesRelated R rule rule') (loose : Bool) :
    (trees : List Mdast.Node) → Mdast.Node.headingDepthsAll trees ⊆ depths →
    LoggedRelated (Forall₂ R) (listChildren rule loose trees) (listChildren rule' loose trees)
  | [], _ => loggedRelated_nil
  | tree :: trees, hdepths => by
    obtain ⟨htree, htrees⟩ := List.append_subset.mp hdepths
    rw [listChildren.eq_def, listChildren.eq_def]
    dsimp only
    refine LoggedRelated.append ?_ (related_listChildren hR hleaf loose trees htrees)
    split
    · next checked parts position =>
      rw [Mdast.Node.headingDepths] at htree
      have hparts := (List.append_subset.mp htree).2
      exact (related_itemParts hR hleaf parts hparts).map fun h => related_singleton
        (related_itemElement hR loose checked position h)
    · exact related_node hR hleaf tree htree

/-- So have the parts of an item. -/
theorem related_itemParts (hR : Around depths R) (hleaf : RulesRelated R rule rule') :
    (trees : List Mdast.Node) → Mdast.Node.headingDepthsAll trees ⊆ depths →
    LoggedRelated (Forall₂ (PartRelated R)) (itemParts rule trees) (itemParts rule' trees)
  | [], _ => loggedRelated_nil
  | tree :: trees, hdepths => by
    obtain ⟨htree, htrees⟩ := List.append_subset.mp hdepths
    rw [itemParts, itemParts]
    refine LoggedRelated.append ?_ (related_itemParts hR hleaf trees htrees)
    -- A paragraph is opened in a tight item, so the relation must hold of its children too.
    cases hparagraph : tree.isParagraph with
    | false => exact (related_node hR hleaf tree htree).map related_map_other
    | true =>
      obtain ⟨children, position, rfl⟩ := exists_of_isParagraph hparagraph
      rw [Mdast.Node.headingDepths] at htree
      rw [node_paragraph, node_paragraph]
      have hnodes := related_nodes hR hleaf children (List.append_subset.mp htree).2
      have hpart : PartRelated R ⟨true, element "p" (nodes rule children).value position⟩
          ⟨true, element "p" (nodes rule' children).value position⟩ := .paragraph hnodes.value
      exact ⟨.cons hpart .nil, hnodes.log⟩

/-- So have the rows of a table. -/
theorem related_rows (hR : Around depths R) (hleaf : RulesRelated R rule rule')
    (align : List (Option Mdast.Align)) (isHead : Bool) :
    (trees : List Mdast.Node) → Mdast.Node.headingDepthsAll trees ⊆ depths →
    LoggedRelated (Forall₂ R) (rows rule align isHead trees) (rows rule' align isHead trees)
  | [], _ => loggedRelated_nil
  | tree :: trees, hdepths => by
    obtain ⟨htree, htrees⟩ := List.append_subset.mp hdepths
    rw [rows.eq_def, rows.eq_def]
    dsimp only
    split
    · next cellNodes position =>
      rw [Mdast.Node.headingDepths] at htree
      have hcells := (List.append_subset.mp htree).2
      refine LoggedRelated.append ?_ (related_rows hR hleaf align false trees htrees)
      exact (related_cells hR hleaf _ align cellNodes hcells).map fun h => related_singleton
        (hR.element position (by decide) (hR.separateLoose h))
    · exact related_rows hR hleaf align isHead trees htrees

/-- So have the cells of a row. -/
theorem related_cells (hR : Around depths R) (hleaf : RulesRelated R rule rule') (isHead : Bool)
    (align : List (Option Mdast.Align)) :
    (trees : List Mdast.Node) → Mdast.Node.headingDepthsAll trees ⊆ depths →
    LoggedRelated (Forall₂ R) (cells rule (cellTag isHead) align trees)
      (cells rule' (cellTag isHead) align trees)
  | [], _ => loggedRelated_nil
  | tree :: trees, hdepths => by
    obtain ⟨htree, htrees⟩ := List.append_subset.mp hdepths
    rw [cells.eq_def, cells.eq_def]
    dsimp only
    refine LoggedRelated.append ?_ (related_cells hR hleaf isHead align.tail trees htrees)
    refine LoggedRelated.map ?_ fun h => related_singleton (hR.tag _ (.cell isHead _) h)
    cases tree with
    | branch kind children position =>
      rw [Mdast.Node.headingDepths] at htree
      exact related_nodes hR hleaf children (List.append_subset.mp htree).2
    | leaf kind position => exact loggedRelated_nil

end

/-- A node that is not a tree of its own becomes the only content of one. -/
theorem toHastBy_of_not_root (rule : LeafRule) {tree : Mdast.Node}
    (h : ∀ children position, tree ≠ .branch .root children position) :
    tree.toHastBy rule = (node rule tree).map fun children => .root children none [] := by
  unfold Mdast.Node.toHastBy
  split
  · exact absurd rfl (h _ _)
  · rfl

/-- **Related rules give roots with related children, the same positions and the same records.** -/
theorem related_toHastBy {tree : Mdast.Node} (hR : Around tree.headingDepths R)
    (hleaf : RulesRelated R rule rule') :
    ∃ children children' position, Forall₂ R children children' ∧
      (tree.toHastBy rule).value = .root children position [] ∧
      (tree.toHastBy rule').value = .root children' position [] ∧
      (tree.toHastBy rule).log = (tree.toHastBy rule').log := by
  by_cases hroot : ∃ children position, tree = .branch .root children position
  · obtain ⟨children, position, rfl⟩ := hroot
    have h := related_nodes hR hleaf children (List.subset_append_right _ _)
    exact ⟨_, _, position, hR.separate h.value, rfl, rfl, h.log⟩
  · push Not at hroot
    have h := related_node hR hleaf tree (List.Subset.refl _)
    rw [toHastBy_of_not_root rule hroot, toHastBy_of_not_root rule' hroot]
    exact ⟨_, _, none, h.value, rfl, rfl, h.log⟩

end Trees

/-! ## Properties of what is converted -/

/-- The property holds of the texts that are put between nodes, of checkboxes, and of a wrapper if it
holds of the nodes in it. -/
structure Hereditary (depths : List Nat) (P : Hast.Node → Prop) : Prop where
  plain (value : String) : P (.plain value)
  checkbox (checked : Bool) : P (checkbox checked)
  tag {tagName : String} {properties : Properties} {children : List Hast.Node}
    (position : Option Position) (hwrapper : Wrapper depths tagName properties)
    (h : ∀ child ∈ children, P child) : P (.tag tagName properties children position)

variable {P : Hast.Node → Prop}

/-- A list is related to itself by a property if the property holds of every node in it. -/
theorem forall₂_and_eq_iff {nodes nodes' : List Hast.Node} :
    Forall₂ (fun node node' => P node ∧ node = node') nodes nodes' ↔
      (∀ node ∈ nodes, P node) ∧ nodes = nodes' := by
  rw [List.forall₂_and_left, List.forall₂_eq_eq_eq]

/-- A property of nodes goes along with the conversion as a relation of every node to itself. -/
theorem Hereditary.around (hP : Hereditary depths P) :
    Around depths fun node node' => P node ∧ node = node' where
  plain value := ⟨hP.plain value, rfl⟩
  checkbox checked := ⟨hP.checkbox checked, rfl⟩
  tag := by
    intro tagName properties children children' position hwrapper h
    obtain ⟨hchildren, rfl⟩ := forall₂_and_eq_iff.mp h
    exact ⟨hP.tag position hwrapper hchildren, rfl⟩

/-- **A property that the nodes of leaves have, and that goes along with what is put around them,
holds of everything in the root.** -/
theorem forall_toHast (options : ConversionOptions) {tree : Mdast.Node}
    (hP : Hereditary tree.headingDepths P) (hleaf : ∀ node, LeafNode options node → P node) :
    ∃ children position, (tree.toHast options).value = .root children position [] ∧
      ∀ child ∈ children, P child := by
  have hrule : RulesRelated (fun node node' => P node ∧ node = node') (leaf options)
      (leaf options) := by
    intro position kind
    have hnodes : ∀ node ∈ (leaf options position kind).value, P node := fun node hnode =>
      hleaf node (leafNode_of_mem_leaf node hnode)
    exact ⟨forall₂_and_eq_iff.mpr ⟨hnodes, rfl⟩, rfl⟩
  obtain ⟨children, _, position, hrelated, hvalue, -, -⟩ := related_toHastBy hP.around hrule
  exact ⟨children, position, hvalue, (forall₂_and_eq_iff.mp hrelated).1⟩

end Hypermark.Conversion
