/-!
# Places in a source text

A `Position` is the span of a node in the text it was read from.  Lines and columns count from one,
offsets count bytes from zero; a point that comes from elsewhere may lack its offset.
-/

namespace Hypermark

/-- A point in a source text. -/
structure Point where
  line : Nat
  column : Nat
  offset : Option Nat
deriving DecidableEq, Repr, Inhabited

/-- A span of a source text. -/
structure Position where
  start : Point
  stop : Point
deriving DecidableEq, Repr, Inhabited

end Hypermark
