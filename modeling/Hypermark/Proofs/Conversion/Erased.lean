import Hypermark.Proofs.Conversion.Related
import Hypermark.Proofs.Mdast.Tables

/-!
# Leaves that are left out

Line feeds, looseness and checkboxes depend on what is converted, not on what there was to convert: a
leaf without hypertext could as well not be there (`value_toHastBy_erase`).  So raw HTML that is not
allowed, front matter, definitions and the like leave no trace, and whether raw HTML is allowed makes
no difference to anything but raw HTML (`value_toHast_erase`).
-/

namespace Hypermark.Mdast

namespace Leaf

/-- Raw HTML. -/
def isHtml : Leaf → Bool
  | html _ => true
  | _ => false

/-- A leaf that never has hypertext: front matter, definitions, references, expressions and modules. -/
def isSilent : Leaf → Bool
  | yaml _ | toml _ | definition .. => true
  | imageReference .. | footnoteReference .. => true
  | flowExpression _ | textExpression _ | esm _ => true
  | _ => false

/-- A leaf that has no hypertext where raw HTML is not allowed. -/
def isDropped (kind : Leaf) : Bool := kind.isHtml || kind.isSilent

/-- Raw HTML is dropped where it is not allowed. -/
theorem isDropped_of_isHtml {kind : Leaf} (h : kind.isHtml) : kind.isDropped := by
  rw [isDropped, h, Bool.true_or]

/-- What never has hypertext is dropped anyway. -/
theorem isDropped_of_isSilent {kind : Leaf} (h : kind.isSilent) : kind.isDropped := by
  rw [isDropped, h, Bool.or_true]

end Leaf

namespace Node

variable (dropped : Leaf → Bool)

/-- The node is a leaf of a kind that is to be erased. -/
def isErased : Node → Bool
  | branch .. => false
  | leaf kind _ => dropped kind

/-- The node is an item of a list. -/
def isListItem : Node → Bool
  | branch (.listItem ..) .. => true
  | _ => false

mutual

/-- Erases the leaves of some kinds from every child list. -/
def erase : Node → Node
  | branch kind children position => branch kind (eraseAll children) position
  | leaf kind position => leaf kind position

/-- Erases the leaves of some kinds from a list, and from every child list below. -/
def eraseAll : List Node → List Node
  | [] => []
  | node :: nodes =>
    if node.isErased dropped then eraseAll nodes else node.erase :: eraseAll nodes

end

variable {dropped} {node : Node} {nodes children : List Node}

/-- A branch is never erased. -/
theorem not_isErased_branch {kind : Branch} {position : Option Position} :
    ¬ (branch kind children position).isErased dropped := Bool.false_ne_true

/-- What is erased is a leaf of such a kind. -/
theorem exists_of_isErased (h : node.isErased dropped) :
    ∃ kind position, node = leaf kind position ∧ dropped kind := by
  cases node with
  | branch => exact absurd h not_isErased_branch
  | leaf kind position => exact ⟨kind, position, rfl, h⟩

/-- Where more kinds are erased, more leaves are. -/
theorem isErased_mono {dropped' : Leaf → Bool} (h : ∀ kind, dropped kind → dropped' kind)
    (herased : node.isErased dropped) : node.isErased dropped' := by
  obtain ⟨kind, position, rfl, hkind⟩ := exists_of_isErased herased
  exact h kind hkind

/-- A leaf that is erased is gone from the list. -/
theorem eraseAll_cons_of_isErased (h : node.isErased dropped) :
    eraseAll dropped (node :: nodes) = eraseAll dropped nodes := by
  rw [eraseAll, if_pos h]

/-- Any other node stays, with what is left below it. -/
theorem eraseAll_cons_of_not_isErased (h : ¬ node.isErased dropped) :
    eraseAll dropped (node :: nodes) = node.erase dropped :: eraseAll dropped nodes := by
  rw [eraseAll, if_neg h]

/-- A test that leaves do not pass is passed in what is left if it was passed before. -/
theorem any_eraseAll {test : Node → Bool} (hleaf : ∀ kind position, test (leaf kind position) = false)
    (herase : ∀ node, test (node.erase dropped) = test node) (nodes : List Node) :
    (eraseAll dropped nodes).any test = nodes.any test := by
  induction nodes with
  | nil => rfl
  | cons node nodes ih =>
    by_cases herased : node.isErased dropped
    · obtain ⟨kind, position, rfl, -⟩ := exists_of_isErased herased
      rw [eraseAll_cons_of_isErased herased, ih, List.any_cons, hleaf, Bool.false_or]
    · rw [eraseAll_cons_of_not_isErased herased, List.any_cons, List.any_cons, herase, ih]

/-- A test that looks at nothing but the kind of a node has the same result after erasing. -/
theorem test_erase (test : Node → Bool)
    (h : ∀ kind children children' position,
      test (branch kind children position) = test (branch kind children' position))
    (node : Node) : test (node.erase dropped) = test node := by
  cases node with
  | branch kind children position => exact h kind _ children position
  | leaf => rfl

/-- An item of a list is still one when leaves are erased in it. -/
theorem isListItem_erase (node : Node) : (node.erase dropped).isListItem = node.isListItem :=
  test_erase isListItem (fun kind _ _ _ => by cases kind <;> rfl) node

/-- So is a paragraph. -/
theorem isParagraph_erase (node : Node) : (node.erase dropped).isParagraph = node.isParagraph :=
  test_erase isParagraph (fun kind _ _ _ => by cases kind <;> rfl) node

/-- An item of a list is a branch of that kind. -/
theorem exists_of_isListItem (h : node.isListItem) :
    ∃ spread checked parts position, node = branch (.listItem spread checked) parts position := by
  unfold isListItem at h
  split at h
  · exact ⟨_, _, _, _, rfl⟩
  · cases h

end Node

end Hypermark.Mdast

namespace Hypermark.Conversion

open Mdast.Node (any_eraseAll eraseAll eraseAll_cons_of_isErased eraseAll_cons_of_not_isErased
  exists_of_isErased exists_of_isListItem exists_of_isTableCell exists_of_isTableRow hasRegularTables
  hasRegularTables_branch haveRegularTables haveRegularTables_cons isErased_mono isListItem_erase
  isParagraph_erase not_isErased_branch test_erase)

/-! ## Children of lists -/

variable {dropped : Mdast.Leaf → Bool}

/-- Whether an item is spread is not a matter of what is erased in it. -/
theorem isSpreadItem_erase (tree : Mdast.Node) :
    isSpreadItem (tree.erase dropped) = isSpreadItem tree :=
  test_erase isSpreadItem (fun kind _ _ _ => by cases kind <;> rfl) tree

/-- Nor is whether it is a task. -/
theorem isTaskItem_erase (tree : Mdast.Node) :
    isTaskItem (tree.erase dropped) = isTaskItem tree :=
  test_erase isTaskItem (fun kind _ _ _ => by cases kind <;> rfl) tree

/-- An item takes the looseness of its list. -/
theorem value_listChildren_item (rule : LeafRule) (loose spread : Bool) (checked : Option Bool)
    (parts : List Mdast.Node) (position : Option Position) (trees : List Mdast.Node) :
    (listChildren rule loose (.branch (.listItem spread checked) parts position :: trees)).value
      = itemElement loose checked (itemParts rule parts).value position
        :: (listChildren rule loose trees).value := by
  rw [listChildren]
  rfl

/-- What is no item is converted as everywhere else. -/
theorem value_listChildren_of_not_item {rule : LeafRule} {loose : Bool} {tree : Mdast.Node}
    (h : ¬ tree.isListItem) {trees : List Mdast.Node} :
    (listChildren rule loose (tree :: trees)).value
      = (node rule tree).value ++ (listChildren rule loose trees).value := by
  rw [listChildren.eq_def]
  dsimp only
  split
  · exact absurd rfl h
  · rfl

/-! ## Converting what is left -/

/-- One rule gives nothing for the leaves that are erased, and the other gives the same as it for the
leaves that are left. -/
structure Erases (dropped : Mdast.Leaf → Bool) (rule rule' : LeafRule) : Prop where
  silent (kind : Mdast.Leaf) (position : Option Position) (h : dropped kind) :
    (rule position kind).value = []
  same (kind : Mdast.Leaf) (position : Option Position) (h : ¬ dropped kind) :
    (rule' position kind).value = (rule position kind).value

variable {rule rule' : LeafRule}

/-- There is no hypertext for what is erased. -/
theorem Erases.value_node_of_isErased (he : Erases dropped rule rule') {tree : Mdast.Node}
    (h : tree.isErased dropped) : (node rule tree).value = [] := by
  obtain ⟨kind, position, rfl, hkind⟩ := exists_of_isErased h
  rw [node]
  exact he.silent kind position hkind

/-- The values of lists are appended. -/
theorem value_append {β : Type} (x y : Logged (List β)) :
    (x.append y).value = x.value ++ y.value := rfl

/-- The value is what is changed. -/
theorem value_map {β γ : Type} (f : β → γ) (x : Logged β) : (x.map f).value = f x.value := rfl

mutual

/-- What is left of a node is converted as the node was. -/
theorem value_node_erase (he : Erases dropped rule rule') :
    (tree : Mdast.Node) → tree.hasRegularTables → ¬ tree.isErased dropped →
    (node rule' (tree.erase dropped)).value = (node rule tree).value
  | .leaf kind position, _, herased => by
    rw [Mdast.Node.erase, node, node]
    exact he.same kind position herased
  | .branch kind children position, h, _ => by
    obtain ⟨hholds, hchildren⟩ := hasRegularTables_branch.mp h
    -- Most branches convert all their children alike, so this stands in front of the cases.
    have hnodes := value_nodes_erase he children hchildren
    rw [Mdast.Node.erase, node.eq_def, node.eq_def]
    dsimp only
    cases kind with
    | list ordered start spread =>
      dsimp only
      rw [value_map, value_map, any_eraseAll (fun _ _ => rfl) isSpreadItem_erase,
        any_eraseAll (fun _ _ => rfl) isTaskItem_erase,
        value_listChildren_erase he _ children hchildren]
    | listItem spread checked =>
      dsimp only
      rw [value_map, value_map, value_itemParts_erase he children hchildren]
    | table align =>
      dsimp only
      rw [value_map, value_map, value_rows_erase he align true children hholds hchildren]
    | _ =>
      dsimp only
      rw [value_map, value_map, hnodes]

/-- A list of trees has the same hypertext when leaves are erased in it. -/
theorem value_nodes_erase (he : Erases dropped rule rule') :
    (trees : List Mdast.Node) → haveRegularTables trees →
    (nodes rule' (eraseAll dropped trees)).value = (nodes rule trees).value
  | [], _ => rfl
  | tree :: trees, h => by
    obtain ⟨htree, htrees⟩ := haveRegularTables_cons.mp h
    have hrest := value_nodes_erase he trees htrees
    rw [nodes, value_append]
    by_cases herased : tree.isErased dropped
    · rw [eraseAll_cons_of_isErased herased, he.value_node_of_isErased herased, hrest]
      rfl
    · rw [eraseAll_cons_of_not_isErased herased, nodes, value_append, hrest,
        value_node_erase he tree htree herased]

/-- So have the children of a list. -/
theorem value_listChildren_erase (he : Erases dropped rule rule') (loose : Bool) :
    (trees : List Mdast.Node) → haveRegularTables trees →
    (listChildren rule' loose (eraseAll dropped trees)).value = (listChildren rule loose trees).value
  | [], _ => rfl
  | tree :: trees, h => by
    obtain ⟨htree, htrees⟩ := haveRegularTables_cons.mp h
    have hrest := value_listChildren_erase he loose trees htrees
    by_cases hitem : tree.isListItem
    -- An item is laid out by its list, so its parts are what is converted, not the item.
    · obtain ⟨spread, checked, parts, position, rfl⟩ := exists_of_isListItem hitem
      have hparts := (hasRegularTables_branch.mp htree).2
      rw [eraseAll_cons_of_not_isErased not_isErased_branch, Mdast.Node.erase,
        value_listChildren_item, value_listChildren_item,
        value_itemParts_erase he parts hparts, hrest]
    · rw [value_listChildren_of_not_item hitem]
      by_cases herased : tree.isErased dropped
      · rw [eraseAll_cons_of_isErased herased, he.value_node_of_isErased herased, hrest]
        rfl
      · have hitem' : ¬ (tree.erase dropped).isListItem := by rwa [isListItem_erase]
        rw [eraseAll_cons_of_not_isErased herased, value_listChildren_of_not_item hitem',
          value_node_erase he tree htree herased, hrest]

/-- So have the parts of an item. -/
theorem value_itemParts_erase (he : Erases dropped rule rule') :
    (trees : List Mdast.Node) → haveRegularTables trees →
    (itemParts rule' (eraseAll dropped trees)).value = (itemParts rule trees).value
  | [], _ => rfl
  | tree :: trees, h => by
    obtain ⟨htree, htrees⟩ := haveRegularTables_cons.mp h
    have hrest := value_itemParts_erase he trees htrees
    rw [itemParts, value_append, value_map]
    by_cases herased : tree.isErased dropped
    · rw [eraseAll_cons_of_isErased herased, he.value_node_of_isErased herased, hrest]
      rfl
    · rw [eraseAll_cons_of_not_isErased herased, itemParts, value_append, value_map, hrest,
        value_node_erase he tree htree herased, isParagraph_erase]

/-- So have the rows of a table. -/
theorem value_rows_erase (he : Erases dropped rule rule') (align : List (Option Mdast.Align))
    (isHead : Bool) :
    (trees : List Mdast.Node) → (∀ tree ∈ trees, tree.isTableRow) → haveRegularTables trees →
    (rows rule' align isHead (eraseAll dropped trees)).value = (rows rule align isHead trees).value
  | [], _, _ => rfl
  | tree :: trees, hrows, h => by
    obtain ⟨htree, htrees⟩ := haveRegularTables_cons.mp h
    obtain ⟨hrow, hrest⟩ := List.forall_mem_cons.mp hrows
    obtain ⟨children, position, rfl⟩ := exists_of_isTableRow hrow
    obtain ⟨hholds, hchildren⟩ := hasRegularTables_branch.mp htree
    -- Rows and cells are branches, so nothing is erased here, only further down.
    rw [eraseAll_cons_of_not_isErased not_isErased_branch, Mdast.Node.erase, rows,
      rows, value_append, value_append, value_map, value_map,
      value_cells_erase he _ align children hholds hchildren,
      value_rows_erase he align false trees hrest htrees]

/-- So have the cells of a row: the erased leaves were not among them. -/
theorem value_cells_erase (he : Erases dropped rule rule') (tagName : String)
    (align : List (Option Mdast.Align)) :
    (trees : List Mdast.Node) → (∀ tree ∈ trees, tree.isTableCell) → haveRegularTables trees →
    (cells rule' tagName align (eraseAll dropped trees)).value
      = (cells rule tagName align trees).value
  | [], _, _ => rfl
  | tree :: trees, hcells, h => by
    obtain ⟨htree, htrees⟩ := haveRegularTables_cons.mp h
    obtain ⟨hcell, hrest⟩ := List.forall_mem_cons.mp hcells
    obtain ⟨children, position, rfl⟩ := exists_of_isTableCell hcell
    have hchildren := (hasRegularTables_branch.mp htree).2
    rw [eraseAll_cons_of_not_isErased not_isErased_branch, Mdast.Node.erase, cells,
      cells, value_append, value_append, value_map, value_map,
      value_nodes_erase he children hchildren,
      value_cells_erase he tagName align.tail trees hrest htrees]
    rfl

end

/-- **Leaves without hypertext leave no trace**: without them the hypertext of a tree is the same. -/
theorem value_toHastBy_erase (he : Erases dropped rule rule') {tree : Mdast.Node}
    (htables : tree.hasRegularTables) (hkept : ¬ tree.isErased dropped) :
    ((tree.erase dropped).toHastBy rule').value = (tree.toHastBy rule).value := by
  by_cases hroot : ∃ children position, tree = .branch .root children position
  · obtain ⟨children, position, rfl⟩ := hroot
    have hchildren := (hasRegularTables_branch.mp htables).2
    rw [Mdast.Node.erase, Mdast.Node.toHastBy, Mdast.Node.toHastBy, value_map, value_map,
      value_nodes_erase he children hchildren]
  · push Not at hroot
    have hroot' : ∀ children position, tree.erase dropped ≠ .branch .root children position := by
      intro children position heq
      cases tree with
      | leaf => cases heq
      | branch kind inner place =>
        cases heq
        exact hroot inner position rfl
    rw [toHastBy_of_not_root rule hroot, toHastBy_of_not_root rule' hroot', value_map, value_map,
      value_node_erase he tree htables hkept]

/-! ## Raw HTML -/

section

variable {kind : Mdast.Leaf} {position : Option Position}

/-- Nothing but raw HTML depends on the options. -/
theorem leaf_of_not_isHtml (h : ¬ kind.isHtml) (options options' : ConversionOptions) :
    leaf options position kind = leaf options' position kind := by
  cases kind with
  | html => exact absurd rfl h
  | _ => rfl

/-- Raw HTML has no hypertext where it is not allowed. -/
theorem value_leaf_of_isHtml (h : kind.isHtml) : (leaf ⟨false⟩ position kind).value = [] := by
  cases kind with
  | html => rfl
  | _ => cases h

/-- What never has hypertext has none under any options. -/
theorem value_leaf_of_isSilent (h : kind.isSilent) (options : ConversionOptions) :
    (leaf options position kind).value = [] := by
  cases kind with
  | yaml | toml | definition | imageReference | footnoteReference => rfl
  | flowExpression | textExpression | esm => rfl
  | _ => cases h

end

/-- Without raw HTML it does not matter whether it is allowed. -/
theorem erases_html (allowed : Bool) :
    Erases Mdast.Leaf.isHtml (leaf ⟨false⟩) (leaf ⟨allowed⟩) where
  silent _ _ h := value_leaf_of_isHtml h
  same _ _ h := congrArg Logged.value (leaf_of_not_isHtml h _ _)

/-- Erasing what never has hypertext changes nothing under any options. -/
theorem erases_silent (options : ConversionOptions) :
    Erases Mdast.Leaf.isSilent (leaf options) (leaf options) where
  silent _ _ h := value_leaf_of_isSilent h options
  same _ _ _ := rfl

/-- Erasing raw HTML too makes it no matter whether it is allowed. -/
theorem erases_dropped (allowed : Bool) :
    Erases Mdast.Leaf.isDropped (leaf ⟨false⟩) (leaf ⟨allowed⟩) where
  silent kind position h := by
    rcases Bool.or_eq_true_iff.mp h with hhtml | hsilent
    · exact value_leaf_of_isHtml hhtml
    · exact value_leaf_of_isSilent hsilent _
  same kind position h := by
    have hhtml : ¬ kind.isHtml := mt Mdast.Leaf.isDropped_of_isHtml h
    rw [leaf_of_not_isHtml hhtml]

/-- **What has no hypertext leaves no trace, and whether raw HTML is allowed makes no difference to
anything else.** -/
theorem value_toHast_erase {tree : Mdast.Node} (htables : tree.hasRegularTables)
    (hkept : ¬ tree.isErased Mdast.Leaf.isDropped) (allowed : Bool) :
    (tree.toHast ⟨false⟩).value = ((tree.erase Mdast.Leaf.isDropped).toHast ⟨allowed⟩).value ∧
    (tree.toHast ⟨true⟩).value = ((tree.erase Mdast.Leaf.isSilent).toHast ⟨true⟩).value ∧
    (tree.toHast ⟨false⟩).value = ((tree.erase Mdast.Leaf.isHtml).toHast ⟨allowed⟩).value := by
  have hhtml : ¬ tree.isErased Mdast.Leaf.isHtml :=
    mt (isErased_mono fun _ => Mdast.Leaf.isDropped_of_isHtml) hkept
  have hsilent : ¬ tree.isErased Mdast.Leaf.isSilent :=
    mt (isErased_mono fun _ => Mdast.Leaf.isDropped_of_isSilent) hkept
  exact ⟨(value_toHastBy_erase (erases_dropped allowed) htables hkept).symm,
    (value_toHastBy_erase (erases_silent ⟨true⟩) htables hsilent).symm,
    (value_toHastBy_erase (erases_html allowed) htables hhtml).symm⟩

/-- Raw HTML at the front and at the end of a document, a quote and a tight task, and a definition as
the only other child of a list. -/
theorem value_toHast_erase_nested :
    let html : Mdast.Node := .leaf (.html "<i>") none
    let definition : Mdast.Node := .leaf (.definition "u" none "a" none) none
    let paragraph : Mdast.Node := .branch .paragraph [.leaf (.text "a") none] none
    let item (parts : List Mdast.Node) : Mdast.Node := .branch (.listItem false (some true)) parts none
    let list (items : List Mdast.Node) : Mdast.Node := .branch (.list false none false) items none
    let quote (children : List Mdast.Node) : Mdast.Node := .branch .blockquote children none
    let root (children : List Mdast.Node) : Mdast.Node := .branch .root children none
    let tree := root [html, quote [html, paragraph, html],
      list [item [html, paragraph, html], definition], html]
    tree.hasRegularTables ∧ ¬ tree.isErased Mdast.Leaf.isDropped ∧
    (tree.toHast ⟨false⟩).value
      = ((root [quote [paragraph], list [item [paragraph]]]).toHast ⟨true⟩).value := by
  intro html definition paragraph item list quote root tree
  have htables : tree.hasRegularTables := by decide
  have hkept : ¬ tree.isErased Mdast.Leaf.isDropped := by decide
  exact ⟨htables, hkept, (value_toHast_erase htables hkept true).1⟩

end Hypermark.Conversion
