import Hypermark.Mdast.Printer
import Hypermark.Proofs.Conversion.Related
import Hypermark.Proofs.Mdast.Tables
import Hypermark.Proofs.Preorder

/-!
# Rows and columns of tables

A table is converted row by row: the first row goes to a head, the others to a body, and every row has
an element for each of its own cells, aligned as its column is (`table_grid`).  A row is not filled up
with empty cells, so a table has all its columns in every row exactly when the rows of the document have
them.
-/

namespace Hypermark.Conversion

open List (Forall₂)

variable {rule : LeafRule} {align : List (Option Mdast.Align)}

/-! ## What rows and tables become -/

/-- The element of a cell in a column of a table with these alignments. -/
def cellElement (rule : LeafRule) (cellTag : String) (align : List (Option Mdast.Align))
    (column : Nat) (cell : Mdast.Node) : Hast.Node :=
  .element cellTag (align[column]?.join.toList.map fun value => ("align", .string value.word))
    (nodes rule cell.childList).value cell.position? []

/-- The element is that of a row: its cells are the cells of the row, and nothing else. -/
structure IsRow (rule : LeafRule) (align : List (Option Mdast.Align)) (cellTag : String)
    (row : Mdast.Node) (made : Hast.Node) : Prop where
  tag : made.hasTag "tr"
  position : made.position? = row.position?
  cells : made.elements = row.childList.mapIdx (cellElement rule cellTag align)

/-- The element is a part of a table with these rows. -/
structure IsSection (rule : LeafRule) (align : List (Option Mdast.Align)) (tagName cellTag : String)
    (rows : List Mdast.Node) (made : Hast.Node) : Prop where
  tag : made.hasTag tagName
  rows : Forall₂ (IsRow rule align cellTag) rows made.elements

/-- The parts of a table with these rows: a head for the first, and a body for the others if there are
any. -/
inductive AreSections (rule : LeafRule) (align : List (Option Mdast.Align)) :
    List Mdast.Node → List Hast.Node → Prop
  | empty : AreSections rule align [] []
  | head {row : Mdast.Node} {head : Hast.Node} (h : IsSection rule align "thead" "th" [row] head) :
    AreSections rule align [row] [head]
  | body {row : Mdast.Node} {rows : List Mdast.Node} {head body : Hast.Node} (hne : rows ≠ [])
    (hhead : IsSection rule align "thead" "th" [row] head)
    (hbody : IsSection rule align "tbody" "td" rows body) :
    AreSections rule align (row :: rows) [head, body]

/-! ## Elements between line feeds -/

/-- Line feeds are no elements, so the elements that were separated are found again. -/
theorem filter_separate {nodes : List Hast.Node} (h : ∀ node ∈ nodes, node.isElement) :
    (separate nodes).filter Hast.Node.isElement = nodes := by
  have hfeed : lineFeed.isElement = false := rfl
  unfold separate
  induction nodes with
  | nil => rfl
  | cons node nodes ih =>
    obtain ⟨hnode, hnodes⟩ := List.forall_mem_cons.mp h
    cases nodes with
    | nil => rw [List.intersperse_singleton, List.filter_cons_of_pos hnode, List.filter_nil]
    | cons next nodes =>
      rw [List.intersperse_cons_cons, List.filter_cons_of_pos hnode, List.filter_cons_of_neg
        (by rw [hfeed]; exact Bool.false_ne_true), ih hnodes]

/-- Line feeds around elements do not count as elements. -/
theorem elements_separateLoose (tagName : String) {nodes : List Hast.Node}
    (h : ∀ node ∈ nodes, node.isElement) (position : Option Position) :
    (element tagName (separateLoose nodes) position).elements = nodes := by
  have hending : (if nodes.isEmpty then [] else [lineFeed]).filter Hast.Node.isElement = [] := by
    split <;> rfl
  rw [Hast.Node.elements, element, Hast.Node.childList_tag, separateLoose, List.filter_append,
    hending, List.append_nil, List.filter_cons_of_neg (by decide), filter_separate h]

/-! ## The conversion -/

/-- A cell has the word for its alignment as its only property, or none. -/
theorem cellProperties_eq (value : Option Mdast.Align) :
    cellProperties value = value.toList.map fun value => ("align", .string value.word) := by
  rcases value with _ | _ | _ | _ <;> rfl

/-- The alignments of the columns are used up one by one. -/
theorem value_cells (cellTag : String) (trees : List Mdast.Node) :
    (cells rule cellTag align trees).value = trees.mapIdx (cellElement rule cellTag align) := by
  induction trees generalizing align with
  | nil => rfl
  | cons tree trees ih =>
    have htail : (fun column => cellElement rule cellTag align (column + 1))
        = cellElement rule cellTag align.tail := by
      funext column cell
      rw [cellElement, cellElement, List.getElem?_tail]
    have hhead : align.head?.getD none = align[0]?.join := by
      cases align <;> rfl
    rw [List.mapIdx_cons, htail, ← ih, cells.eq_def]
    dsimp only [Logged.append, Logged.map]
    rw [hhead, cellProperties_eq]
    cases tree <;> rfl

/-- The element of a row. -/
def rowOf (rule : LeafRule) (align : List (Option Mdast.Align)) (cellTag : String)
    (row : Mdast.Node) : Hast.Node :=
  rowElement (row.childList.mapIdx (cellElement rule cellTag align)) row.position?

/-- The element that is made of a row is one for that row. -/
theorem isRow_rowOf (cellTag : String) (row : Mdast.Node) :
    IsRow rule align cellTag row (rowOf rule align cellTag row) where
  tag := rfl
  position := rfl
  cells := by
    rw [rowOf, rowElement, elements_separateLoose]
    intro node hnode
    obtain ⟨column, hcolumn, rfl⟩ := List.mem_mapIdx.mp hnode
    rfl

/-- The first row makes an element, and the rows behind it are not the head any more. -/
theorem value_rows_cons {row : Mdast.Node} (h : row.isTableRow) (isHead : Bool)
    (trees : List Mdast.Node) :
    (rows rule align isHead (row :: trees)).value
      = rowOf rule align (cellTag isHead) row :: (rows rule align false trees).value := by
  obtain ⟨children, position, rfl⟩ := Mdast.Node.exists_of_isTableRow h
  rw [rows]
  dsimp only [Logged.append, Logged.map]
  rw [value_cells]
  rfl

/-- All rows behind the first have the same kind of cells. -/
theorem value_rows_body {trees : List Mdast.Node} (h : ∀ row ∈ trees, row.isTableRow) :
    (rows rule align false trees).value = trees.map (rowOf rule align "td") := by
  induction trees with
  | nil => rfl
  | cons row trees ih =>
    obtain ⟨hrow, hrows⟩ := List.forall_mem_cons.mp h
    rw [value_rows_cons hrow, ih hrows]
    rfl

/-- An element around rows is a part of a table with these rows. -/
theorem isSection_element (tagName cellTag : String) (trees : List Mdast.Node) :
    IsSection rule align tagName cellTag trees
      (element tagName (separateLoose (trees.map (rowOf rule align cellTag))) none) where
  tag := decide_eq_true rfl
  rows := by
    rw [elements_separateLoose _ (List.forall_mem_map.mpr fun _ _ => rfl)]
    exact List.forall₂_map_right_iff.mpr (List.forall₂_same.mpr fun row _ => isRow_rowOf _ row)

/-- **A table becomes a head and a body with a row for each of its rows, and a cell in the row for each
of the cells.** -/
theorem areSections_table (rule : LeafRule) (align : List (Option Mdast.Align))
    {trees : List Mdast.Node} (h : ∀ row ∈ trees, row.isTableRow) (position : Option Position) :
    ∃ table, (node rule (.branch (.table align) trees position)).value = [table] ∧
      table.hasTag "table" ∧ table.position? = position ∧
      AreSections rule align trees table.elements := by
  refine ⟨tableElement (rows rule align true trees).value position, ?_, rfl, rfl, ?_⟩
  · rw [node.eq_def]
    rfl
  cases trees with
  | nil => exact .empty
  | cons row trees =>
    obtain ⟨hrow, hrows⟩ := List.forall_mem_cons.mp h
    rw [value_rows_cons hrow, value_rows_body hrows]
    have hhead : IsSection rule align "thead" "th" [row]
        (element "thead" (separateLoose [rowOf rule align "th" row]) none) :=
      isSection_element "thead" "th" [row]
    cases trees with
    | nil =>
      have hsections : (tableElement [rowOf rule align "th" row] position).elements
          = [element "thead" (separateLoose [rowOf rule align "th" row]) none] :=
        elements_separateLoose "table" (List.forall_mem_singleton.mpr rfl) position
      exact hsections ▸ .head hhead
    | cons next trees =>
      have hsections : (tableElement (rowOf rule align "th" row ::
            (next :: trees).map (rowOf rule align "td")) position).elements
          = [element "thead" (separateLoose [rowOf rule align "th" row]) none, element "tbody"
            (separateLoose ((next :: trees).map (rowOf rule align "td"))) none] :=
        elements_separateLoose "table" (List.forall_mem_cons.mpr
          ⟨rfl, List.forall_mem_singleton.mpr rfl⟩) position
      exact hsections ▸
        .body (List.cons_ne_nil _ _) hhead (isSection_element "tbody" "td" (next :: trees))

/-! ## Columns -/

/-- Every row of a table is in one of its parts. -/
theorem AreSections.rows {trees : List Mdast.Node} {sections : List Hast.Node}
    (h : AreSections rule align trees sections) :
    Forall₂ (fun row made => ∃ cellTag, IsRow rule align cellTag row made) trees
      (sections.flatMap Hast.Node.elements) := by
  have hpart {tagName cellTag : String} {trees : List Mdast.Node} {made : Hast.Node}
      (h : IsSection rule align tagName cellTag trees made) :
      Forall₂ (fun row made => ∃ cellTag, IsRow rule align cellTag row made) trees made.elements :=
    h.rows.imp fun _ _ hrow => ⟨cellTag, hrow⟩
  cases h with
  | empty => exact .nil
  | head h =>
    rw [List.flatMap_singleton]
    exact hpart h
  | body _ hhead hbody =>
    rw [List.flatMap_cons, List.flatMap_singleton]
    exact List.rel_append (hpart hhead) (hpart hbody)

/-- A row has as many cells as before. -/
theorem IsRow.length {cellTag : String} {row : Mdast.Node} {made : Hast.Node}
    (h : IsRow rule align cellTag row made) : made.elements.length = row.childList.length := by
  rw [h.cells, List.length_mapIdx]

/-- The rows have all columns exactly when they had them before. -/
theorem AreSections.rectangular_iff {trees : List Mdast.Node} {sections : List Hast.Node}
    (h : AreSections rule align trees sections) (columns : Nat) :
    (∀ made ∈ sections.flatMap Hast.Node.elements, made.elements.length = columns) ↔
      ∀ row ∈ trees, row.childList.length = columns := by
  have hrows := h.rows
  clear h
  generalize sections.flatMap Hast.Node.elements = mades at hrows
  induction hrows with
  | nil => simp
  | cons hrow _ ih =>
    obtain ⟨cellTag, hrow⟩ := hrow
    rw [List.forall_mem_cons, List.forall_mem_cons, hrow.length]
    exact and_congr_right fun _ => ih

/-- **A table becomes a head with its first row and a body with the others, every row with its own cells
in order and each cell aligned as its column is.** Nothing is added to a row, so the rows have all the
columns that have an alignment exactly when the rows of the document have them. -/
theorem table_grid (options : ConversionOptions) (align : List (Option Mdast.Align))
    {trees : List Mdast.Node} (h : ∀ row ∈ trees, row.isTableRow) (position : Option Position) :
    ∃ table, (node (leaf options) (.branch (.table align) trees position)).value = [table] ∧
      table.hasTag "table" ∧ table.position? = position ∧
      AreSections (leaf options) align trees table.elements ∧
      ((∀ made ∈ table.elements.flatMap Hast.Node.elements, made.elements.length = align.length) ↔
        ∀ row ∈ trees, row.childList.length = align.length) := by
  obtain ⟨table, hvalue, htag, hposition, hsections⟩ :=
    areSections_table (leaf options) align h position
  exact ⟨table, hvalue, htag, hposition, hsections, hsections.rectangular_iff _⟩

/-- In a table with a short row, that row stays short, and all rows are found in the head and the
body. -/
theorem table_grid_short :
    let cell (value : String) : Mdast.Node :=
      .branch .tableCell [.leaf (.text value) none] none
    let trees : List Mdast.Node := [.branch .tableRow [cell "a", cell "b"] none,
      .branch .tableRow [cell "c"] none]
    (∀ row ∈ trees, row.isTableRow) ∧
    ∃ table, (node (leaf {}) (.branch (.table [some .left, some .right]) trees none)).value
        = [table] ∧
      AreSections (leaf {}) [some .left, some .right] trees table.elements ∧
      ¬ ∀ made ∈ table.elements.flatMap Hast.Node.elements, made.elements.length = 2 := by
  intro cell trees
  have hrows : ∀ row ∈ trees, row.isTableRow := by decide
  obtain ⟨table, hvalue, -, -, hsections, hcolumns⟩ :=
    table_grid {} [some .left, some .right] hrows none
  refine ⟨hrows, table, hvalue, hsections, fun hall => ?_⟩
  exact absurd (hcolumns.mp hall) (by decide)

/-- It is not so that every row gets all the columns of its table: a row that is short stays short. -/
theorem not_forall_rectangular :
    ¬ ∀ (align : List (Option Mdast.Align)) (trees : List Mdast.Node),
      (∀ row ∈ trees, row.isTableRow ∧ row.childList.length ≤ align.length ∧
        ∀ cell ∈ row.childList, cell.isTableCell) →
      ∀ table ∈ (node (leaf {}) (.branch (.table align) trees none)).value,
        ∀ made ∈ table.elements.flatMap Hast.Node.elements, made.elements.length = align.length := by
  intro hall
  let cell (value : String) : Mdast.Node := .branch .tableCell [.leaf (.text value) none] none
  let trees : List Mdast.Node := [.branch .tableRow [cell "a", cell "b"] none,
    .branch .tableRow [cell "c"] none]
  have hrows : ∀ row ∈ trees, row.isTableRow ∧ row.childList.length ≤ 2 ∧
      ∀ cell ∈ row.childList, cell.isTableCell := by
    decide
  have hshort : ¬ ∀ table ∈ (node (leaf {})
        (.branch (.table [some .left, some .right]) trees none)).value,
      ∀ made ∈ table.elements.flatMap Hast.Node.elements, made.elements.length = 2 := by
    decide
  exact hshort (hall [some .left, some .right] trees hrows)

end Hypermark.Conversion
