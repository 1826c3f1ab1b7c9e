import Hypermark.Position

/-!
# The cells of a document

A document is read as a row of cells.  A cell shows one character: a line ending of any form shows as
a line feed, and a tab shows as itself and, up to the next tab stop, as further spaces that have no
text of their own.  So every column of a line that holds ASCII only is one cell, and a construct can
take a part of a tab.

* `Source.ofText` lays a text out in cells.
* `Source.mark` is the place of a cell, and `Source.written` the text between two places.
-/

namespace Hypermark

namespace Markdown

/-- A place between two columns: its line and column, counted from one with columns in bytes, the
bytes before it, and how many columns of a tab it has behind it when it is inside one. -/
structure Mark where
  line : Nat
  column : Nat
  offset : Nat
  inside : Nat := 0
deriving DecidableEq, Repr, Inhabited

namespace Mark

/-- The start of a text. -/
def origin : Mark := ⟨1, 1, 0, 0⟩

/-- The start of the line after a line ending of some bytes. -/
def nextLine (m : Mark) (bytes : Nat) : Mark := ⟨m.line + 1, 1, m.offset + bytes, 0⟩

/-- So many bytes further on the line, tabs counted as one. -/
def forward (m : Mark) (bytes : Nat) : Mark := ⟨m.line, m.column + bytes, m.offset + bytes, 0⟩

/-- So many bytes back on the line, tabs counted as one. -/
def back (m : Mark) (bytes : Nat) : Mark := ⟨m.line, m.column - bytes, m.offset - bytes, 0⟩

/-- The point of a node. -/
def point (m : Mark) : Point := ⟨m.line, m.column, some m.offset⟩

/-- The place comes before another in the text. -/
def isBefore (m n : Mark) : Bool :=
  m.offset < n.offset || (m.offset = n.offset && m.inside < n.inside)

/-- The distance of tab stops. -/
def tabSize : Nat := 4

/-- The columns that a tab at a place fills. -/
def tabWidth (m : Mark) : Nat := tabSize - (m.column - 1) % tabSize

/-- The place behind a character of a line. -/
def behind (m : Mark) (c : Char) : Mark :=
  if c = '\t' then { m with column := m.column + m.tabWidth, offset := m.offset + 1 }
  else { m with column := m.column + c.utf8Size, offset := m.offset + c.utf8Size }

/-- The bytes before the first character whose text lies behind the place: the text of a tab that is cut
lies before it. -/
def cut (m : Mark) : Nat := if m.inside = 0 then m.offset else m.offset + 1

end Mark

/-- One shown character of a document. -/
structure Cell where
  /-- The character it shows. -/
  char : Char
  mark : Mark
deriving Repr, Inhabited

/-- A document in cells. -/
structure Source where
  text : String
  cells : Array Cell
  /-- The end of the document. -/
  stop : Mark
deriving Repr, Inhabited

namespace Source

/-- The cells of a tab. -/
def tabCells (m : Mark) : List Cell :=
  ⟨'\t', m⟩ :: (List.range (m.tabWidth - 1)).map fun k =>
    ⟨' ', { m with column := m.column + k + 1, inside := k + 1 }⟩

/-- Lays characters out from a place on, behind the cells made before. -/
def layOut (cells : Array Cell) (m : Mark) : List Char → Array Cell × Mark
  | [] => (cells, m)
  | '\r' :: '\n' :: rest => layOut (cells.push ⟨'\n', m⟩) (m.nextLine 2) rest
  | c :: rest =>
    if c = '\n' ∨ c = '\r' then layOut (cells.push ⟨'\n', m⟩) (m.nextLine 1) rest
    else if c = '\t' then layOut (cells ++ tabCells m) (m.behind '\t') rest
    else layOut (cells.push ⟨c, m⟩) (m.behind c) rest

/-- A text in cells. -/
def ofText (text : String) : Source :=
  let (cells, stop) := layOut #[] Mark.origin text.toList
  ⟨text, cells, stop⟩

/-- The number of cells. -/
def size (s : Source) : Nat := s.cells.size

/-- The character that a cell shows. -/
def char? (s : Source) (i : Nat) : Option Char := s.cells[i]?.map Cell.char

/-- The place of a cell, and the end of the document behind the last one. -/
def mark (s : Source) (i : Nat) : Mark :=
  match s.cells[i]? with
  | some cell => cell.mark
  | none => s.stop

/-- The text of some bytes. -/
def bytes (s : Source) (i j : Nat) : String := String.Pos.Raw.extract s.text ⟨i⟩ ⟨j⟩

/-- The text between two places; the text of a tab lies at its start. -/
def written (s : Source) (m n : Mark) : String := s.bytes m.cut n.cut

/-- The length in bytes of the text between two places, where the columns taken of a cut tab count
each. -/
def width (s : Source) (m n : Mark) : Nat :=
  (if m.inside = 0 then 0 else Mark.tabSize - m.inside) + (s.written m n).utf8ByteSize
    + (n.inside - 1)

/-- The character of the text that ends at a place. -/
def before? (s : Source) (m : Mark) : Option Char :=
  if m.offset = 0 then none
  else String.Pos.Raw.get? s.text (String.Pos.Raw.prev s.text ⟨m.offset⟩)

/-- The character of the text that starts at a place. -/
def after? (s : Source) (m : Mark) : Option Char := String.Pos.Raw.get? s.text ⟨m.offset⟩

/-- The first cell of the last line. -/
def lastLine (s : Source) : Nat :=
  s.size - (s.cells.toList.reverse.takeWhile fun cell => cell.char ≠ '\n').length

end Source

end Markdown

end Hypermark
