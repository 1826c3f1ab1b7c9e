import Hypermark.Hast.Decoder

/-!
# Errors

What can go wrong on the way from a text to HTML: the Markdown may be malformed, which only documents
with tags and expressions can be, or a tree may not be readable.
-/

namespace Hypermark

/-- A place in a document, both numbers counted from one. -/
structure SourceLocation where
  line : Nat
  column : Nat
deriving DecidableEq, Repr

namespace SourceLocation

/-- A place as it is written. -/
def text (location : SourceLocation) : String :=
  toString location.line ++ ":" ++ toString location.column

end SourceLocation

/-- Why processing failed. -/
inductive ProcessError where
  /-- The Markdown is malformed. -/
  | parse (reason : String) (location : SourceLocation)
  /-- The JSON of a tree cannot be read. -/
  | json (error : Hast.Node.ReadError)
deriving DecidableEq, Repr

namespace ProcessError

/-- The wording of an error. -/
def message : ProcessError → String
  | parse reason location => "Parse error at " ++ location.text ++ ": " ++ reason
  | json error => "JSON error: " ++ error.message

end ProcessError

end Hypermark
