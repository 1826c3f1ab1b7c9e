import Hypermark.Proofs.Conversion.Related
import Hypermark.Proofs.Mdast.Tables

/-!
# What is gathered from a tree before and after the conversion

Something is gathered from the nodes of a tree in document order: texts, positions, checkboxes.  What
the conversion adds to a tree (line feeds, paragraphs around checkboxes, sections of tables) has none
of it, and what it leaves out of a tree is no more than the places of branches.  So if the hypertext of
every leaf gives what the leaf gives, and every element what the branch gives that it is made of
(`Wraps`), the hypertext of every tree with regular tables gives what the tree gives, in the same order
(`Gathers.toHastBy`).

What is compared is either equal, or part of the other where places may be lost: a relation `R` of lists
that goes along with putting lists together (`Compares`).  Where anything may be lost (`Forgiving`), the
tables need not be regular (`Gathers.relates`).
-/

namespace Hypermark.Conversion

open Hast (Properties)
open Mdast.Node (hasRegularTables haveRegularTables)

variable {α : Type}

/-- A relation of lists that can be taken together and one after the other, such as equality. -/
structure Compares (R : List α → List α → Prop) : Prop where
  refl (items : List α) : R items items
  trans {first second third : List α} (h : R first second) (h' : R second third) : R first third
  append {first first' second second' : List α} (h : R first first') (h' : R second second') :
    R (first ++ second) (first' ++ second')

/-! ## Branches and their elements -/

/-- The elements that are made of a branch with these children, by their tag and their properties. Rows
and cells are made in tables only. -/
inductive Wraps (children : List Mdast.Node) : Mdast.Branch → String → Properties → Prop
  | paragraph : Wraps children .paragraph "p" []
  | heading (depth : Nat) : Wraps children (.heading depth) ("h" ++ toString depth) []
  | emphasis : Wraps children .emphasis "em" []
  | strong : Wraps children .strong "strong" []
  | delete : Wraps children .delete "del" []
  | blockquote : Wraps children .blockquote "blockquote" []
  | link (url : String) (title : Option String) :
    Wraps children (.link url title) "a" (optionalProperty "title" title [("href", .string url)])
  | list (ordered : Bool) (start : Option Nat) (spread : Bool) :
    Wraps children (.list ordered start spread) (if ordered then "ol" else "ul")
      (listProperties ordered start (children.any isTaskItem))
  | item (spread : Bool) : Wraps children (.listItem spread none) "li" []
  | task (spread checked : Bool) :
    Wraps children (.listItem spread (some checked)) "li" (Hast.onlyClasses ["task-list-item"])
  | table (align : List (Option Mdast.Align)) : Wraps children (.table align) "table" []
  | row : Wraps children .tableRow "tr" []
  | cell (isHead : Bool) (align : Option Mdast.Align) :
    Wraps children .tableCell (cellTag isHead) (cellProperties align)

/-- The branch may give way to its children without an element. -/
def givesWay : Mdast.Branch → Bool
  | .root | .linkReference _ | .tableRow | .tableCell | .footnoteDefinition .. | .jsxFlow _
  | .jsxText _ => true
  | _ => false

/-- The tags of the elements that are added without a branch of their own. -/
def addedTags : List String := ["p", "thead", "tbody"]

/-- The items of a task's checkbox. -/
def boxItems (read : Hast.Node → List α) : Option Bool → List α
  | some checked => read (checkbox checked)
  | none => []

/-- The items of a branch besides those of its place and its children: the checkbox of a task. -/
def taskItems (read : Hast.Node → List α) : Mdast.Branch → List α
  | .listItem _ checked => boxItems read checked
  | _ => []

/-- What `read` gathers from hypertext goes with what `source` gathers from Markdown; `here` is what an
element has besides its children, `place` what a branch has besides its children and its checkbox. -/
structure Gathers (R : List α → List α → Prop) (here : String → Properties → Option Position → List α)
    (place : Mdast.Branch → List Mdast.Node → Option Position → List α)
    (read : Hast.Node → List α) (source : Mdast.Node → List α) (rule : LeafRule) : Prop where
  compares : Compares R
  read_lineFeed : read lineFeed = []
  read_space : read (.plain " ") = []
  read_wrapper {depths : List Nat} {tagName : String} {properties : Properties}
    (h : Wrapper depths tagName properties) (children : List Hast.Node)
    (position : Option Position) :
    read (.tag tagName properties children position)
      = here tagName properties position ++ children.flatMap read
  read_root (children : List Mdast.Node) (nodes : List Hast.Node) (position : Option Position) :
    read (.root nodes position []) = place .root children position ++ nodes.flatMap read
  here_added {tagName : String} (h : tagName ∈ addedTags) : here tagName [] none = []
  /-- A paragraph may be opened. -/
  here_paragraph (position : Option Position) : R [] (here "p" [] position)
  /-- It makes no difference whether a checkbox stands in a paragraph or in front of it. -/
  read_checkbox (checked : Bool) (position : Option Position) :
    here "p" [] position ++ read (checkbox checked)
      = read (checkbox checked) ++ here "p" [] position
  here_wraps {kind : Mdast.Branch} {children : List Mdast.Node} {tagName : String}
    {properties : Properties} (h : Wraps children kind tagName properties)
    (position : Option Position) :
    R (here tagName properties position) (place kind children position)
  place_root (children : List Mdast.Node) : place .root children none = []
  place_givesWay {kind : Mdast.Branch} (h : givesWay kind = true) (children : List Mdast.Node)
    (position : Option Position) : R [] (place kind children position)
  leaf (kind : Mdast.Leaf) (position : Option Position) :
    R ((rule position kind).value.flatMap read) (source (.leaf kind position))
  source_branch (kind : Mdast.Branch) (children : List Mdast.Node) (position : Option Position) :
    source (.branch kind children position)
      = place kind children position ++ taskItems read kind ++ children.flatMap source

/-- Anything may be lost, and what becomes a cell of a table has no less than the cell, whatever it is. -/
structure Forgiving (R : List α → List α → Prop)
    (here : String → Properties → Option Position → List α)
    (place : Mdast.Branch → List Mdast.Node → Option Position → List α)
    (source : Mdast.Node → List α) : Prop where
  nothing (items : List α) : R [] items
  branch (isHead : Bool) (align : Option Mdast.Align) (kind : Mdast.Branch)
    (children : List Mdast.Node) (position : Option Position) :
    R (here (cellTag isHead) (cellProperties align) position) (place kind children position)
  leaf (isHead : Bool) (align : Option Mdast.Align) (kind : Mdast.Leaf)
    (position : Option Position) :
    R (here (cellTag isHead) (cellProperties align) position) (source (.leaf kind position))

variable {R : List α → List α → Prop} {here : String → Properties → Option Position → List α}
  {place : Mdast.Branch → List Mdast.Node → Option Position → List α}
  {read : Hast.Node → List α} {source : Mdast.Node → List α} {rule : LeafRule}
  (hg : Gathers R here place read source rule)

include hg

namespace Gathers

/-! ## Line feeds -/

/-- Nothing is gathered from line feeds between nodes. -/
theorem flatMap_separate (nodes : List Hast.Node) :
    (separate nodes).flatMap read = nodes.flatMap read := by
  unfold separate
  induction nodes with
  | nil => rfl
  | cons node nodes ih =>
    cases nodes with
    | nil => rfl
    | cons next nodes =>
      rw [List.intersperse_cons_cons, List.flatMap_cons, List.flatMap_cons, ih, hg.read_lineFeed,
        List.nil_append, ← List.flatMap_cons]

/-- Nor is anything from line feeds around them. -/
theorem flatMap_separateLoose (nodes : List Hast.Node) :
    (separateLoose nodes).flatMap read = nodes.flatMap read := by
  have hending : (if nodes.isEmpty then [] else [lineFeed]).flatMap read = [] := by
    split
    · rfl
    · rw [List.flatMap_singleton, hg.read_lineFeed]
  rw [separateLoose, List.flatMap_append, hending, List.append_nil, List.flatMap_cons,
    hg.read_lineFeed, List.nil_append, hg.flatMap_separate]

/-- A bare element has its own items and those of its children. -/
theorem read_element {tagName : String} (h : tagName ∈ bareTags) (children : List Hast.Node)
    (position : Option Position) :
    read (element tagName children position)
      = here tagName [] position ++ children.flatMap read :=
  hg.read_wrapper (.bare h : Wrapper [] tagName []) children position

/-! ## Items -/

end Gathers

/-- The items of the parts of a list item. -/
def partItems (read : Hast.Node → List α) (parts : List ItemPart) : List α :=
  parts.flatMap fun part => read part.node

/-- What comes from a paragraph is a paragraph. -/
def ItemPart.Fits (part : ItemPart) : Prop :=
  part.isParagraph = true → ∃ children position, part.node = element "p" children position

namespace Gathers

/-- Opening a paragraph loses nothing but its place. -/
theorem flatMap_partNodes (loose : Bool) {part : ItemPart} (h : part.Fits) :
    R ((partNodes loose part).flatMap read) (read part.node) := by
  obtain ⟨isParagraph, node⟩ := part
  have hwhole : R ([node].flatMap read) (read node) := by
    rw [List.flatMap_singleton]
    exact hg.compares.refl _
  cases isParagraph with
  | false => cases node <;> exact hwhole
  | true =>
    obtain ⟨children, position, rfl⟩ := h rfl
    cases loose with
    | true => exact hwhole
    | false =>
      rw [hg.read_element (by decide)]
      exact hg.compares.append (hg.here_paragraph position) (hg.compares.refl _)

/-- However the parts of an item are laid out, what is gathered from them is the same. -/
theorem flatMap_layOut (loose first : Bool) {parts : List ItemPart} (h : ∀ part ∈ parts, part.Fits) :
    R ((layOut loose first parts).flatMap read) (partItems read parts) := by
  have hfeed (condition : Bool) :
      (if condition then [lineFeed] else []).flatMap read = [] := by
    cases condition with
    | true => exact (List.flatMap_singleton read _).trans hg.read_lineFeed
    | false => rfl
  induction parts generalizing first with
  | nil => exact hg.compares.refl _
  | cons part parts ih =>
    obtain ⟨hpart, hparts⟩ := List.forall_mem_cons.mp h
    rw [layOut]
    simp only [List.flatMap_append, hfeed, List.nil_append, List.append_nil]
    exact hg.compares.append (hg.flatMap_partNodes loose hpart) (ih false hparts)

/-- A checkbox comes in front of everything else in its item. -/
theorem partItems_addCheckbox (checked : Bool) {parts : List ItemPart} (h : ∀ part ∈ parts, part.Fits) :
    (∀ part ∈ addCheckbox (checkbox checked) parts, part.Fits) ∧
    partItems read (addCheckbox (checkbox checked) parts)
      = read (checkbox checked) ++ partItems read parts := by
  have hbox : read (element "p" [checkbox checked] none) = read (checkbox checked) := by
    rw [hg.read_element (by decide), hg.here_added (by decide), List.nil_append,
      List.flatMap_singleton]
  unfold addCheckbox
  split
  · next tagName properties children position extra rest =>
    obtain ⟨hpart, hrest⟩ := List.forall_mem_cons.mp h
    obtain ⟨inner, place, heq⟩ := hpart rfl
    cases heq
    refine ⟨List.forall_mem_cons.mpr ⟨fun _ => ⟨_, _, rfl⟩, hrest⟩, ?_⟩
    have hchildren : (if children.isEmpty then [checkbox checked] else
        checkbox checked :: .plain " " :: children).flatMap read
        = read (checkbox checked) ++ children.flatMap read := by
      cases children with
      | nil => simp
      | cons => simp [hg.read_space]
    have hread (nodes : List Hast.Node) : read (.element "p" [] nodes position [])
        = here "p" [] position ++ nodes.flatMap read := hg.read_element (by decide) nodes position
    simp only [partItems, List.flatMap_cons, hread, hchildren]
    -- The checkbox stands behind the place of the paragraph, and is said to stand in front.
    rw [← List.append_assoc (here "p" [] position), hg.read_checkbox]
    simp only [List.append_assoc]
  · refine ⟨List.forall_mem_cons.mpr ⟨fun _ => ⟨_, _, rfl⟩, h⟩, ?_⟩
    simp only [partItems, List.flatMap_cons, hbox]

/-- The element of an item has what the item has, whether the item or its list says that it is loose. -/
theorem read_itemElement (loose spread : Bool) (checked : Option Bool) (children : List Mdast.Node)
    (position : Option Position) {parts : List ItemPart} (h : ∀ part ∈ parts, part.Fits) :
    R (read (itemElement loose checked parts position))
      (place (.listItem spread checked) children position ++ boxItems read checked
        ++ partItems read parts) := by
  rw [List.append_assoc]
  cases checked with
  | none =>
    rw [itemElement, hg.read_element (by decide), boxItems, List.nil_append]
    exact hg.compares.append (hg.here_wraps (.item spread) position)
      (hg.flatMap_layOut loose true h)
  | some checked =>
    obtain ⟨hfits, hitems⟩ := hg.partItems_addCheckbox checked h
    rw [itemElement, hg.read_wrapper (.task : Wrapper [] _ _), boxItems, ← hitems]
    exact hg.compares.append (hg.here_wraps (.task spread checked) position)
      (hg.flatMap_layOut loose true hfits)

/-! ## Tables -/

/-- From a table its own items are gathered, and those of its rows. -/
theorem read_tableElement (rows : List Hast.Node) (position : Option Position) :
    read (tableElement rows position) = here "table" [] position ++ rows.flatMap read := by
  have hsection {tagName : String} (h : tagName ∈ bareTags) (hadded : tagName ∈ addedTags)
      (rows : List Hast.Node) :
      read (element tagName (separateLoose rows) none) = rows.flatMap read := by
    rw [hg.read_element h, hg.here_added hadded, List.nil_append, hg.flatMap_separateLoose]
  unfold tableElement
  rw [hg.read_element (by decide), hg.flatMap_separateLoose]
  congr 1
  cases rows with
  | nil => rfl
  | cons head body =>
    cases body with
    | nil => rw [List.flatMap_singleton, hsection (by decide) (by decide)]
    | cons row body =>
      rw [List.flatMap_cons, List.flatMap_singleton, hsection (by decide) (by decide),
        hsection (by decide) (by decide), List.flatMap_singleton, ← List.flatMap_cons]

/-- From a row its own items are gathered, and those of its cells. -/
theorem read_rowElement (cells : List Hast.Node) (position : Option Position) :
    read (rowElement cells position) = here "tr" [] position ++ cells.flatMap read := by
  rw [rowElement, hg.read_element (by decide), hg.flatMap_separateLoose]

/-! ## Branches -/

/-- A single element that is made of a branch. -/
theorem singleton {children : List Mdast.Node} {kind : Mdast.Branch} {tagName : String}
    {properties : Properties} (h : Wraps children kind tagName properties) {node : Hast.Node}
    {items items' : List α} {position : Option Position}
    (hread : read node = here tagName properties position ++ items) (hitems : R items items') :
    R ([node].flatMap read) (place kind children position ++ items') := by
  rw [List.flatMap_singleton, hread]
  exact hg.compares.append (hg.here_wraps h position) hitems

/-- From the hypertext of a branch the items of its place are gathered, and those of its
children. -/
theorem flatMap_branch {kind : Mdast.Branch} (hlist : ∀ ordered start spread,
      kind ≠ .list ordered start spread) (hitem : ∀ spread checked, kind ≠ .listItem spread checked)
    (htable : ∀ align, kind ≠ .table align) (children : List Mdast.Node) (nodes : List Hast.Node)
    (position : Option Position) :
    R ((branch kind nodes position).flatMap read)
      (place kind children position ++ nodes.flatMap read) := by
  have hbare {kind : Mdast.Branch} {tagName : String} (h : Wraps children kind tagName [])
      (hname : tagName ∈ bareTags) : R ([element tagName nodes position].flatMap read)
        (place kind children position ++ nodes.flatMap read) :=
    hg.singleton h (hg.read_element hname nodes position) (hg.compares.refl _)
  have hway {kind : Mdast.Branch} (h : givesWay kind = true) :
      R (nodes.flatMap read) (place kind children position ++ nodes.flatMap read) :=
    hg.compares.append (hg.place_givesWay h children position) (hg.compares.refl _)
  cases kind with
  | root =>
    rw [branch, hg.flatMap_separate]
    exact hway rfl
  | paragraph => exact hbare .paragraph (by decide)
  | heading depth =>
    exact hg.singleton (.heading depth)
      (hg.read_wrapper (.heading (List.mem_singleton_self depth)) nodes position)
      (hg.compares.refl _)
  | emphasis => exact hbare .emphasis (by decide)
  | strong => exact hbare .strong (by decide)
  | delete => exact hbare .delete (by decide)
  | blockquote =>
    refine hg.singleton .blockquote (hg.read_element (by decide) _ position) ?_
    rw [hg.flatMap_separateLoose]
    exact hg.compares.refl _
  | link url title =>
    exact hg.singleton (.link url title)
      (hg.read_wrapper (.link url title : Wrapper [] _ _) nodes position) (hg.compares.refl _)
  | list ordered start spread => exact absurd rfl (hlist ordered start spread)
  | listItem spread checked => exact absurd rfl (hitem spread checked)
  | table align => exact absurd rfl (htable align)
  | linkReference | tableRow | tableCell | footnoteDefinition | jsxFlow | jsxText => exact hway rfl

/-- A branch that is no list item has the items of its place and of its children. -/
theorem source_eq {kind : Mdast.Branch} (h : taskItems read kind = [])
    (children : List Mdast.Node) (position : Option Position) :
    source (.branch kind children position)
      = place kind children position ++ children.flatMap source := by
  rw [hg.source_branch, h, List.append_nil]

/-- Lists of nodes are gathered one behind the other. -/
theorem append {x y : Logged (List Hast.Node)} {items items' : List α}
    (h : R (x.value.flatMap read) items) (h' : R (y.value.flatMap read) items') :
    R ((x.append y).value.flatMap read) (items ++ items') := by
  rw [Logged.append, List.flatMap_append]
  exact hg.compares.append h h'

end Gathers

omit hg

/-! ## Trees -/

/-- The parts of an item that come from one of its children fit. -/
theorem fits_of_mem_node {tree : Mdast.Node} :
    ∀ part ∈ (node rule tree).value.map (ItemPart.mk tree.isParagraph), part.Fits := by
  intro part hpart hparagraph
  obtain ⟨made, hmade, rfl⟩ := List.mem_map.mp hpart
  obtain ⟨children, position, rfl⟩ := exists_of_isParagraph hparagraph
  rw [node_paragraph] at hmade
  exact ⟨_, _, List.mem_singleton.mp hmade⟩

mutual

/-- The hypertext of a node gives what the node gives. -/
theorem gathered_node (hg : Gathers R here place read source rule) :
    (tree : Mdast.Node) → Forgiving R here place source ∨ tree.hasRegularTables →
    R ((node rule tree).value.flatMap read) (source tree)
  | .leaf kind position, _ => by
    rw [node]
    exact hg.leaf kind position
  | .branch kind children position, h => by
    obtain ⟨hholds, hchildren⟩ :=
      or_and_left.mp (h.imp_right Mdast.Node.hasRegularTables_branch.mp)
    rw [node.eq_def]
    dsimp only
    split
    · next ordered start spread =>
      rw [hg.source_eq rfl]
      have hitems := gathered_listChildren hg (spread || children.any isSpreadItem) children hchildren
      refine hg.singleton (.list ordered start spread) ?_ hitems
      rw [hg.read_wrapper (.list ordered start _ : Wrapper [] _ _), hg.flatMap_separateLoose]
    · next spread checked =>
      obtain ⟨hfits, hitems⟩ := gathered_itemParts hg children hchildren
      rw [hg.source_branch, Logged.map, List.flatMap_singleton]
      exact hg.compares.trans (hg.read_itemElement spread spread checked children position hfits)
        (hg.compares.append (hg.compares.refl _) hitems)
    · next align =>
      rw [hg.source_eq rfl]
      exact hg.singleton (.table align) (hg.read_tableElement _ position)
        (gathered_rows hg align true children hholds hchildren)
    · next _ hlist hitem htable =>
      -- Only an item has a checkbox, and items have a case of their own.
      have hnone : taskItems read kind = [] := by
        cases kind with
        | listItem spread checked => exact (hitem spread checked rfl).elim
        | _ => rfl
      rw [hg.source_eq hnone]
      exact hg.compares.trans (hg.flatMap_branch hlist hitem htable children _ position)
        (hg.compares.append (hg.compares.refl _) (gathered_nodes hg children hchildren))

/-- What is gathered from a list of trees goes with what is gathered from each. -/
theorem gathered_nodes (hg : Gathers R here place read source rule) :
    (trees : List Mdast.Node) → Forgiving R here place source ∨ haveRegularTables trees →
    R ((nodes rule trees).value.flatMap read) (trees.flatMap source)
  | [], _ => hg.compares.refl _
  | tree :: trees, h => by
    obtain ⟨htree, htrees⟩ := or_and_left.mp (h.imp_right Mdast.Node.haveRegularTables_cons.mp)
    rw [nodes]
    exact hg.append (gathered_node hg tree htree) (gathered_nodes hg trees htrees)

/-- So it is for the children of a list. -/
theorem gathered_listChildren (hg : Gathers R here place read source rule) (loose : Bool) :
    (trees : List Mdast.Node) → Forgiving R here place source ∨ haveRegularTables trees →
    R ((listChildren rule loose trees).value.flatMap read) (trees.flatMap source)
  | [], _ => hg.compares.refl _
  | tree :: trees, h => by
    obtain ⟨htree, htrees⟩ := or_and_left.mp (h.imp_right Mdast.Node.haveRegularTables_cons.mp)
    rw [listChildren.eq_def]
    dsimp only
    refine hg.append ?_ (gathered_listChildren hg loose trees htrees)
    split
    · next spread checked parts position =>
      have hparts := htree.imp_right fun h => (Mdast.Node.hasRegularTables_branch.mp h).2
      obtain ⟨hfits, hitems⟩ := gathered_itemParts hg parts hparts
      rw [hg.source_branch, Logged.map, List.flatMap_singleton]
      exact hg.compares.trans (hg.read_itemElement loose spread checked parts position hfits)
        (hg.compares.append (hg.compares.refl _) hitems)
    · exact gathered_node hg tree htree

/-- So it is for the parts of an item, each of which comes from what it says it comes from. -/
theorem gathered_itemParts (hg : Gathers R here place read source rule) :
    (trees : List Mdast.Node) → Forgiving R here place source ∨ haveRegularTables trees →
    (∀ part ∈ (itemParts rule trees).value, part.Fits) ∧
    R (partItems read (itemParts rule trees).value) (trees.flatMap source)
  | [], _ => ⟨List.forall_mem_nil _, hg.compares.refl _⟩
  | tree :: trees, h => by
    obtain ⟨htree, htrees⟩ := or_and_left.mp (h.imp_right Mdast.Node.haveRegularTables_cons.mp)
    obtain ⟨hfits, hitems⟩ := gathered_itemParts hg trees htrees
    rw [itemParts, Logged.append, Logged.map]
    refine ⟨List.forall_mem_append.mpr ⟨fits_of_mem_node, hfits⟩, ?_⟩
    rw [partItems, List.flatMap_append, List.flatMap_map]
    exact hg.compares.append (gathered_node hg tree htree) hitems

/-- So it is for the rows of a table, if there are only rows in it or anything may be lost. -/
theorem gathered_rows (hg : Gathers R here place read source rule)
    (align : List (Option Mdast.Align)) (isHead : Bool) :
    (trees : List Mdast.Node) →
    Forgiving R here place source ∨ (∀ tree ∈ trees, tree.isTableRow) →
    Forgiving R here place source ∨ haveRegularTables trees →
    R ((rows rule align isHead trees).value.flatMap read) (trees.flatMap source)
  | [], _, _ => hg.compares.refl _
  | tree :: trees, hrows, h => by
    obtain ⟨htree, htrees⟩ := or_and_left.mp (h.imp_right Mdast.Node.haveRegularTables_cons.mp)
    obtain ⟨hrow, hrest⟩ := or_and_left.mp (hrows.imp_right List.forall_mem_cons.mp)
    rw [rows.eq_def]
    dsimp only
    split
    · next children position =>
      obtain ⟨hholds, hchildren⟩ :=
        or_and_left.mp (htree.imp_right Mdast.Node.hasRegularTables_branch.mp)
      refine hg.append ?_ (gathered_rows hg align false trees hrest htrees)
      rw [hg.source_eq rfl]
      exact hg.singleton .row (hg.read_rowElement _ position)
        (gathered_cells hg isHead align children hholds hchildren)
    · next hother =>
      -- What is no row is passed over.
      rcases hrow with hforgiving | hrow
      · exact hg.compares.append (hforgiving.nothing _)
          (gathered_rows hg align isHead trees hrest htrees)
      · obtain ⟨children, position, rfl⟩ := Mdast.Node.exists_of_isTableRow hrow
        exact absurd rfl (hother children position)

/-- So it is for the cells of a row, under the same condition. -/
theorem gathered_cells (hg : Gathers R here place read source rule) (isHead : Bool)
    (align : List (Option Mdast.Align)) :
    (trees : List Mdast.Node) →
    Forgiving R here place source ∨ (∀ tree ∈ trees, tree.isTableCell) →
    Forgiving R here place source ∨ haveRegularTables trees →
    R ((cells rule (cellTag isHead) align trees).value.flatMap read) (trees.flatMap source)
  | [], _, _ => hg.compares.refl _
  | tree :: trees, hcells, h => by
    obtain ⟨htree, htrees⟩ := or_and_left.mp (h.imp_right Mdast.Node.haveRegularTables_cons.mp)
    obtain ⟨hcell, hrest⟩ := or_and_left.mp (hcells.imp_right List.forall_mem_cons.mp)
    rw [cells.eq_def]
    dsimp only
    refine hg.append ?_ (gathered_cells hg isHead align.tail trees hrest htrees)
    rw [Logged.map, List.flatMap_singleton, hg.read_wrapper (.cell isHead _ : Wrapper [] _ _)]
    cases tree with
    | leaf kind position =>
      rcases hcell with hforgiving | hcell
      · -- What is no cell is lost, but for its place.
        rw [Logged.plain, List.flatMap_nil, List.append_nil]
        exact hforgiving.leaf isHead _ kind position
      · cases hcell
    | branch kind children position =>
      have hchildren := gathered_nodes hg children
        (htree.imp_right fun h => (Mdast.Node.hasRegularTables_branch.mp h).2)
      rcases hcell with hforgiving | hcell
      · have hplace := hg.compares.append (hforgiving.branch isHead (align.head?.getD none) kind
          children position) (hforgiving.nothing (taskItems read kind))
        rw [List.append_nil] at hplace
        rw [hg.source_branch]
        exact hg.compares.append hplace hchildren
      · obtain ⟨_, _, heq⟩ := Mdast.Node.exists_of_isTableCell hcell
        cases heq
        rw [hg.source_eq rfl]
        exact hg.compares.append (hg.here_wraps (.cell isHead _) position) hchildren

end

/-- **The hypertext of a tree gives what the tree gives, if its tables are regular or anything may be
lost.** -/
theorem Gathers.relates (hg : Gathers R here place read source rule) {tree : Mdast.Node}
    (h : Forgiving R here place source ∨ tree.hasRegularTables) :
    R (read (tree.toHastBy rule).value) (source tree) := by
  by_cases hroot : ∃ children position, tree = .branch .root children position
  · obtain ⟨children, position, rfl⟩ := hroot
    have hchildren := h.imp_right fun h => (Mdast.Node.hasRegularTables_branch.mp h).2
    rw [Mdast.Node.toHastBy, Logged.map, hg.read_root children, hg.flatMap_separate,
      hg.source_eq rfl]
    exact hg.compares.append (hg.compares.refl _) (gathered_nodes hg children hchildren)
  · push Not at hroot
    rw [toHastBy_of_not_root rule hroot, Logged.map, hg.read_root [], hg.place_root,
      List.nil_append]
    exact gathered_node hg tree h

/-- **The hypertext of a tree with regular tables gives what the tree gives.** -/
theorem Gathers.toHastBy (hg : Gathers R here place read source rule) {tree : Mdast.Node}
    (h : tree.hasRegularTables) : R (read (tree.toHastBy rule).value) (source tree) :=
  hg.relates (.inr h)

end Hypermark.Conversion
