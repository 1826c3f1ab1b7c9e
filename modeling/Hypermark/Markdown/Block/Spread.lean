import Hypermark.Markdown.Event

/-!
# Blank lines in lists

A list is spread if blank lines stand between its items, and an item is if they stand in it.  Blank lines on
the mark of an item do not count, and neither do those in a container inside.

* `Trace.isSpreadList` and `Trace.isSpreadItem` look for such lines.
-/

namespace Hypermark

namespace Markdown

namespace Trace

/-- The event at `i` is of a part of a kind. -/
def hasToken (t : Trace) (i : Nat) (token : Token) : Bool := (t[i]?).any (·.token = token)

/-- Leaves behind, backwards, blanks that end at `i`. -/
def beforeBlank (t : Trace) (i : Nat) : Nat := if t.hasToken i .blank then i - 2 else i

/-- The mark of an item ends at `i`. -/
def isItemMark (t : Trace) (i : Nat) : Bool := t.hasToken i .itemPrefix

/-- A blank line in an item that ends at `i` stands on the mark of the item. -/
def isOnMark (t : Trace) (i : Nat) : Bool := t.isItemMark (t.beforeBlank (i - 2))

/-- A blank line in a list that ends at `i` stands behind an item that is nothing but its mark, or behind one
in a quote that is nothing but its mark. -/
def isBehindMark (t : Trace) (i : Nat) : Bool :=
  if t.hasToken (i - 2) .item then
    let before := t.beforeBlank (i - 3)
    t.isItemMark before || (t.hasToken before .quote && t.hasToken (before - 1) .quotePrefix)
  else false

/-- A blank line that counts stands directly in a part of a kind which is `depth` parts deep at `i`. -/
def isSpread (t : Trace) (token : Token) (leaves : Nat → Bool) (depth i : Nat) : Bool :=
  if h : i < t.size then
    let e := t[i]
    if e.enters then isSpread t token leaves (depth + 1) (i + 1)
    else if depth = 2 ∧ e.token = .blankLine ∧ !leaves i then true
    else if depth = 1 ∧ e.token = token then false
    else isSpread t token leaves (depth - 1) (i + 1)
  else false
termination_by t.size - i

/-- The item that starts at `i` is spread. -/
def isSpreadItem (t : Trace) (i : Nat) : Bool := t.isSpread .item t.isOnMark 0 i

/-- The list that starts at `i` is spread. -/
def isSpreadList (t : Trace) (ordered : Bool) (i : Nat) : Bool :=
  t.isSpread (.list ordered) t.isBehindMark 0 i

end Trace

end Markdown

end Hypermark
