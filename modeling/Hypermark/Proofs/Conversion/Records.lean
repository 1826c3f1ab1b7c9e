import Hypermark.Proofs.Conversion.Related
import Hypermark.Proofs.Mdast.Tables
import Hypermark.Proofs.Preorder

/-!
# Records of what is left out

Every leaf that is left out of the hypertext leaves a record: raw HTML unless it is allowed, and the
leaves for which there is no hypertext.  Front matter and definitions are not content, and need none.
So the records of a conversion are those of the nodes of the tree in document order, each made once
(`log_toHast`).

The rule for the leaves is the only source of records, so that much holds for every rule: the branches
hand on the records of their children, in order and without loss, if the tables are regular
(`log_toHastBy`).
-/

namespace Hypermark

namespace Mdast.Leaf

/-- There is no hypertext for the leaf, though it is content: references without a definition,
expressions and modules. -/
def isUnsupported : Leaf → Bool
  | imageReference .. | footnoteReference .. => true
  | flowExpression _ | textExpression _ | esm _ => true
  | _ => false

end Mdast.Leaf

namespace Conversion

open Mdast.Node (exists_of_isTableCell exists_of_isTableRow hasRegularTables hasRegularTables_branch
  haveRegularTables haveRegularTables_cons preorder)

/-! ## Records of a node -/

/-- The record of a node that is left out. -/
def record? (options : ConversionOptions) : Mdast.Node → Option LogRecord
  | .leaf (.html value) _ => if options.allowDangerousHtml then none else some (.droppedHtml value)
  | .leaf kind position => if kind.isUnsupported then some (.droppedLeaf kind position) else none
  | .branch .. => none

/-- The wording of the record of a node that is left out, behind its level. Raw HTML stands for
itself; any other node is written out whole, in the way `written` gives. -/
def notice? (options : ConversionOptions) (written : Mdast.Leaf → Option Position → String) :
    Mdast.Node → Option String
  | .leaf (.html value) _ =>
    if options.allowDangerousHtml then none else some ("DEBUG Dropping raw HTML node: " ++ value)
  | .leaf kind position =>
    if kind.isUnsupported then
      some ("DEBUG Dropping unsupported mdast node: " ++ written kind position)
    else none
  | .branch .. => none

/-- A record is worded as its node is, whatever way nodes are written out. -/
theorem record?_message (options : ConversionOptions)
    (written : Mdast.Leaf → Option Position → String) (tree : Mdast.Node) :
    (record? options tree).map (·.message written) = notice? options written tree := by
  cases tree with
  | branch => rfl
  | leaf kind position =>
    cases kind with
    | html =>
      obtain ⟨allowed⟩ := options
      cases allowed <;> rfl
    | _ => rfl

/-- The records that a rule makes for a node: those of leaves. -/
def records (rule : LeafRule) : Mdast.Node → List LogRecord
  | .leaf kind position => (rule position kind).log
  | .branch .. => []

/-- A node has its record if it is left out, and no other. -/
theorem records_leaf (options : ConversionOptions) (tree : Mdast.Node) :
    records (leaf options) tree = (record? options tree).toList := by
  cases tree with
  | branch => rfl
  | leaf kind position =>
    cases kind with
    | html =>
      obtain ⟨allowed⟩ := options
      cases allowed <;> rfl
    | _ => rfl

/-! ## Records of a tree -/

/-- Records are appended with the lists they belong to. -/
theorem log_append {α : Type} (x y : Logged (List α)) : (x.append y).log = x.log ++ y.log := rfl

/-- Changing a value makes no record. -/
theorem log_map {α β : Type} (f : α → β) (x : Logged α) : (x.map f).log = x.log := rfl

variable (rule : LeafRule)

/-- The records of the nodes of a tree, in document order. -/
def treeRecords (tree : Mdast.Node) : List LogRecord := tree.preorder.flatMap (records rule)

/-- A branch has no record of its own, only those of its children. -/
theorem treeRecords_branch (kind : Mdast.Branch) (children : List Mdast.Node)
    (position : Option Position) :
    treeRecords rule (.branch kind children position) = children.flatMap (treeRecords rule) :=
  Mdast.Node.flatMap_preorder (records rule) _

mutual

/-- The hypertext of a node comes with the records of the nodes in its tree. -/
theorem log_node : (tree : Mdast.Node) → tree.hasRegularTables →
    (node rule tree).log = treeRecords rule tree
  | .leaf kind position, _ => by
    rw [node, treeRecords, preorder, List.flatMap_singleton, records]
  | .branch kind children position, h => by
    obtain ⟨hholds, hchildren⟩ := hasRegularTables_branch.mp h
    -- Most branches convert all their children alike, so this stands in front of the cases.
    have hnodes := log_nodes children hchildren
    rw [treeRecords_branch, node.eq_def]
    dsimp only
    cases kind with
    | list ordered start spread =>
      dsimp only
      rw [log_map, log_listChildren _ children hchildren]
    | listItem spread checked =>
      dsimp only
      rw [log_map, log_itemParts children hchildren]
    | table align =>
      dsimp only
      rw [log_map, log_rows align true children hholds hchildren]
    | _ => exact hnodes

/-- So does that of a list of trees. -/
theorem log_nodes : (trees : List Mdast.Node) → haveRegularTables trees →
    (nodes rule trees).log = trees.flatMap (treeRecords rule)
  | [], _ => rfl
  | tree :: trees, h => by
    obtain ⟨htree, htrees⟩ := haveRegularTables_cons.mp h
    rw [nodes, log_append, log_node tree htree, log_nodes trees htrees, List.flatMap_cons]

/-- So does that of the children of a list. -/
theorem log_listChildren (loose : Bool) : (trees : List Mdast.Node) → haveRegularTables trees →
    (listChildren rule loose trees).log = trees.flatMap (treeRecords rule)
  | [], _ => rfl
  | tree :: trees, h => by
    obtain ⟨htree, htrees⟩ := haveRegularTables_cons.mp h
    rw [listChildren.eq_def, List.flatMap_cons, ← log_listChildren loose trees htrees]
    dsimp only
    rw [log_append]
    congr 1
    -- An item is laid out by its list, so its parts are what is converted, not the item.
    split
    · next spread checked parts position =>
      rw [log_map, treeRecords_branch, log_itemParts parts (hasRegularTables_branch.mp htree).2]
    · exact log_node tree htree

/-- So do the parts of an item. -/
theorem log_itemParts : (trees : List Mdast.Node) → haveRegularTables trees →
    (itemParts rule trees).log = trees.flatMap (treeRecords rule)
  | [], _ => rfl
  | tree :: trees, h => by
    obtain ⟨htree, htrees⟩ := haveRegularTables_cons.mp h
    rw [itemParts, log_append, log_map, log_node tree htree, log_itemParts trees htrees,
      List.flatMap_cons]

/-- So do the rows of a table, if there are only rows in it: others would be passed over. -/
theorem log_rows (align : List (Option Mdast.Align)) (isHead : Bool) :
    (trees : List Mdast.Node) → (∀ tree ∈ trees, tree.isTableRow) → haveRegularTables trees →
    (rows rule align isHead trees).log = trees.flatMap (treeRecords rule)
  | [], _, _ => rfl
  | tree :: trees, hrows, h => by
    obtain ⟨htree, htrees⟩ := haveRegularTables_cons.mp h
    obtain ⟨hrow, hrest⟩ := List.forall_mem_cons.mp hrows
    obtain ⟨children, position, rfl⟩ := exists_of_isTableRow hrow
    obtain ⟨hholds, hchildren⟩ := hasRegularTables_branch.mp htree
    rw [rows, log_append, log_map, log_cells _ align children hholds hchildren,
      log_rows align false trees hrest htrees, List.flatMap_cons, treeRecords_branch]

/-- So do the cells of a row. -/
theorem log_cells (tagName : String) (align : List (Option Mdast.Align)) :
    (trees : List Mdast.Node) → (∀ tree ∈ trees, tree.isTableCell) → haveRegularTables trees →
    (cells rule tagName align trees).log = trees.flatMap (treeRecords rule)
  | [], _, _ => rfl
  | tree :: trees, hcells, h => by
    obtain ⟨htree, htrees⟩ := haveRegularTables_cons.mp h
    obtain ⟨hcell, hrest⟩ := List.forall_mem_cons.mp hcells
    obtain ⟨children, position, rfl⟩ := exists_of_isTableCell hcell
    have hchildren := (hasRegularTables_branch.mp htree).2
    rw [cells, log_append, log_map, log_nodes children hchildren,
      log_cells tagName align.tail trees hrest htrees, List.flatMap_cons, treeRecords_branch]

end

/-- **A conversion makes the records of its leaves**, in document order and each once. -/
theorem log_toHastBy {tree : Mdast.Node} (h : tree.hasRegularTables) :
    (tree.toHastBy rule).log = treeRecords rule tree := by
  by_cases hroot : ∃ children position, tree = .branch .root children position
  · obtain ⟨children, position, rfl⟩ := hroot
    rw [Mdast.Node.toHastBy, log_map, log_nodes rule children (hasRegularTables_branch.mp h).2,
      treeRecords_branch]
  · push Not at hroot
    rw [toHastBy_of_not_root rule hroot, log_map, log_node rule tree h]

/-- **Nothing is left out silently**: the records of a conversion are those of the nodes that are left
out, in document order, and say what is left out, in whatever way nodes are written out. -/
theorem log_toHast (options : ConversionOptions) {tree : Mdast.Node} (h : tree.hasRegularTables) :
    (tree.toHast options).log = tree.preorder.filterMap (record? options) ∧
    ∀ written, (tree.toHast options).log.map (·.message written)
      = tree.preorder.filterMap (notice? options written) := by
  have hlog : (tree.toHast options).log = tree.preorder.filterMap (record? options) := by
    rw [Mdast.Node.toHast, log_toHastBy _ h, treeRecords, funext (records_leaf options),
      List.filterMap_eq_flatMap_toList]
  refine ⟨hlog, fun written => ?_⟩
  rw [hlog, List.map_filterMap, funext (record?_message options written)]

/-- Raw HTML in a heading, an item and a cell, and between them a reference in a link, an expression in
a definition of a footnote, which gives way to its children, and front matter, which needs no record.
Nodes are written out here with all their fields. -/
theorem log_toHast_nested :
    let html (value : String) : Mdast.Node := .leaf (.html value) none
    let reference : Mdast.Leaf := .imageReference "a" ⟨.full, "i", none⟩
    let place : Option Position := some ⟨⟨4, 3, some 9⟩, ⟨4, 7, some 13⟩⟩
    let table : Mdast.Node := .branch (.table [none])
      [.branch .tableRow [.branch .tableCell [html "<c>", .leaf (.text "t") none] none] none,
        .branch .tableRow [.branch .tableCell [.leaf (.esm "m") none] none] none] none
    let tree : Mdast.Node := .branch .root
      [.leaf (.yaml "y") none, .branch (.heading 1) [html "<h>"] none,
        .branch (.list false none false)
          [.branch (.listItem false (some true)) [html "<i>",
            .branch (.link "u" none) [.leaf reference place] none] none] none,
        .branch (.footnoteDefinition "f" none) [.leaf (.flowExpression "e") none] none, table] none
    let span (position : Option Position) : String :=
      if position = place then "Some(4:3-4:7 (9-13))" else "None"
    let fields (name value : String) (position : Option Position) : String :=
      name ++ " \x7b value: \"" ++ value ++ "\", position: " ++ span position ++ ", stops: [] \x7d"
    let written (leaf : Mdast.Leaf) (position : Option Position) : String :=
      match leaf with
      | .imageReference alt ⟨.full, identifier, none⟩ =>
        "ImageReference \x7b position: " ++ span position ++ ", alt: \"" ++ alt
          ++ "\", reference_kind: Full, identifier: \"" ++ identifier ++ "\", label: None \x7d"
      | .flowExpression value => fields "MdxFlowExpression" value position
      | .esm value => fields "MdxjsEsm" value position
      | leaf => leaf.name
    tree.hasRegularTables ∧
    (tree.toHast ⟨false⟩).log = [.droppedHtml "<h>", .droppedHtml "<i>", .droppedLeaf reference place,
      .droppedLeaf (.flowExpression "e") none, .droppedHtml "<c>", .droppedLeaf (.esm "m") none] ∧
    (tree.toHast ⟨true⟩).log.map (·.message written)
      = ["DEBUG Dropping unsupported mdast node: ImageReference \x7b position: " ++
          "Some(4:3-4:7 (9-13)), alt: \"a\", reference_kind: Full, identifier: \"i\", label: None \x7d",
        "DEBUG Dropping unsupported mdast node: MdxFlowExpression \x7b value: \"e\", " ++
          "position: None, stops: [] \x7d",
        "DEBUG Dropping unsupported mdast node: MdxjsEsm \x7b value: \"m\", position: None, " ++
          "stops: [] \x7d"] := by
  intro html reference place table tree span fields written
  have htables : tree.hasRegularTables := by decide
  obtain ⟨hlog, -⟩ := log_toHast ⟨false⟩ htables
  obtain ⟨-, htexts⟩ := log_toHast ⟨true⟩ htables
  exact ⟨htables, hlog, htexts written⟩

end Conversion

end Hypermark
