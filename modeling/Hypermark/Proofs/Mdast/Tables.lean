import Hypermark.Mdast.Basic

/-!
# Regular tables

A tree is regular if every table in it holds rows and nothing else, and every row cells and nothing
else (`hasRegularTables`).  The conversion passes over other nodes in a table, and makes cells of other
nodes in a row, so what is said of the content of tables holds for regular trees only.
-/

namespace Hypermark.Mdast

namespace Node

/-- The node is a row of a table. -/
def isTableRow : Node → Bool
  | branch .tableRow .. => true
  | _ => false

/-- The node is a cell of a table. -/
def isTableCell : Node → Bool
  | branch .tableCell .. => true
  | _ => false

end Node

/-- What a branch may hold in a regular tree. -/
def Branch.holds : Branch → Node → Bool
  | table _, child => child.isTableRow
  | tableRow, child => child.isTableCell
  | _, _ => true

namespace Node

mutual

/-- Every child of a table is a row, and every child of a row is a cell. -/
def hasRegularTables : Node → Bool
  | branch kind children _ => children.all kind.holds && haveRegularTables children
  | leaf .. => true

/-- So it is in every tree of a list. -/
def haveRegularTables : List Node → Bool
  | [] => true
  | node :: nodes => node.hasRegularTables && haveRegularTables nodes

end

section

variable {kind : Branch} {node : Node} {nodes children : List Node} {position : Option Position}

/-- The tables of a branch are regular if it holds what it may, and so do all branches below it. -/
theorem hasRegularTables_branch : (branch kind children position).hasRegularTables ↔
    (∀ child ∈ children, kind.holds child) ∧ haveRegularTables children := by
  rw [hasRegularTables, Bool.and_eq_true, List.all_eq_true]

/-- The tables of a list of trees are regular if those of each tree are. -/
theorem haveRegularTables_cons :
    haveRegularTables (node :: nodes) ↔ node.hasRegularTables ∧ haveRegularTables nodes := by
  rw [haveRegularTables, Bool.and_eq_true]

/-- A row is a branch of that kind. -/
theorem exists_of_isTableRow (h : node.isTableRow) :
    ∃ children position, node = branch .tableRow children position := by
  unfold isTableRow at h
  split at h
  · exact ⟨_, _, rfl⟩
  · cases h

/-- A cell is a branch of that kind. -/
theorem exists_of_isTableCell (h : node.isTableCell) :
    ∃ children position, node = branch .tableCell children position := by
  unfold isTableCell at h
  split at h
  · exact ⟨_, _, rfl⟩
  · cases h

end

end Node

end Hypermark.Mdast
