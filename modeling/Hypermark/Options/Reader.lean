import Hypermark.Json.Record
import Hypermark.Options

/-!
# Reading options

Options are read as records: each field by its name or, for names of several words, by the spelling
with capitals too.  What is left out has its default.
-/

namespace Hypermark

/-- The flag that a field holds. -/
def flagOr (default : Bool) : Option (Option FieldValue) → Bool
  | some (some (.flag value)) => value
  | _ => default

/-- The text that a field holds. -/
def textOr (default : String) : Option (Option FieldValue) → String
  | some (some (.text value)) => value
  | _ => default

namespace Options

/-- The fields of options, in the order of their declaration. -/
def fields : List Field :=
  [⟨"gfm", [], .flag⟩, ⟨"frontmatter", [], .flag⟩, ⟨"allow_raw_html", ["allowRawHtml"], .flag⟩,
    ⟨"math", [], .flag⟩, ⟨"mermaid", [], .flag⟩, ⟨"mermaid_language", ["mermaidLanguage"], .text⟩]

/-- The options with the fields that are given. -/
def ofValues (values : List (Option FieldValue)) : Options where
  gfm := flagOr true values[0]?
  frontmatter := flagOr true values[1]?
  allowRawHtml := flagOr false values[2]?
  math := flagOr false values[3]?
  mermaid := flagOr true values[4]?
  mermaidLanguage := textOr Diagram.defaultLanguage values[5]?

/-- The options that a text holds. -/
def read (source : List Char) : Except RecordFault Options :=
  (Json.readRecord "Options" fields source).map ofValues

end Options

namespace ParseOptions

/-- The fields of the reader's options, in the order of their declaration. -/
def fields : List Field :=
  [⟨"gfm", [], .flag⟩, ⟨"frontmatter", [], .flag⟩, ⟨"raw_html", ["rawHtml"], .flag⟩,
    ⟨"math", [], .flag⟩]

/-- The options with the fields that are given. -/
def ofValues (values : List (Option FieldValue)) : ParseOptions where
  gfm := flagOr true values[0]?
  frontmatter := flagOr true values[1]?
  rawHtml := flagOr false values[2]?
  math := flagOr false values[3]?

/-- The reader's options that a text holds. -/
def read (source : List Char) : Except RecordFault ParseOptions :=
  (Json.readRecord "ParseOptions" fields source).map ofValues

end ParseOptions

end Hypermark
