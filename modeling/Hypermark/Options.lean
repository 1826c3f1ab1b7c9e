import Hypermark.Diagram
import Hypermark.Json.Printer

/-!
# Options

The choices of a host: which constructs of Markdown are read, whether raw HTML passes through, and
which language of diagrams is marked.

* `ParseOptions` are the choices of the reader alone; `ParseOptions.constructs` are the constructs
  they switch on.
-/

namespace Hypermark

/-- Which groups of constructs are read. -/
structure ParseOptions where
  /-- Tables, task items, footnotes, strikethrough and bare links. -/
  gfm : Bool := true
  /-- Metadata in front of the document. -/
  frontmatter : Bool := true
  /-- Raw HTML. -/
  rawHtml : Bool := false
  /-- Formulas between dollar signs. -/
  math : Bool := false
deriving DecidableEq, Repr

/-- The choices of a host. -/
structure Options where
  gfm : Bool := true
  frontmatter : Bool := true
  /-- Raw HTML is read and kept. -/
  allowRawHtml : Bool := false
  math : Bool := false
  /-- Diagrams are marked. -/
  mermaid : Bool := true
  /-- The language of the diagrams. -/
  mermaidLanguage : String := Diagram.defaultLanguage
deriving DecidableEq, Repr

/-- The constructs of Markdown that can be switched. -/
structure Constructs where
  frontmatter : Bool := false
  htmlFlow : Bool := false
  htmlText : Bool := false
  gfmAutolinkLiteral : Bool := false
  gfmFootnoteDefinition : Bool := false
  gfmLabelStartFootnote : Bool := false
  gfmStrikethrough : Bool := false
  gfmTable : Bool := false
  gfmTaskListItem : Bool := false
  mathFlow : Bool := false
  mathText : Bool := false
  /-- Links between angle brackets. -/
  autolink : Bool := true
  /-- Code by indentation. -/
  codeIndented : Bool := true
  /-- Tags and expressions of the kind that takes the place of HTML. -/
  jsx : Bool := false
deriving DecidableEq, Repr

namespace Constructs

/-- The constructs for documents with tags and expressions instead of HTML. -/
def mdx : Constructs := { autolink := false, codeIndented := false, jsx := true }

/-- The names of the constructs that are switched on, sorted. -/
def names (c : Constructs) : List String :=
  let on (name : String) (enabled : Bool) : List String := if enabled then [name] else []
  ["attention"] ++ on "autolink" c.autolink
    ++ ["blockQuote", "characterEscape", "characterReference", "codeFenced"]
    ++ on "codeIndented" c.codeIndented ++ ["codeText", "definition"]
    ++ on "frontmatter" c.frontmatter ++ on "gfmAutolinkLiteral" c.gfmAutolinkLiteral
    ++ on "gfmFootnoteDefinition" c.gfmFootnoteDefinition
    ++ on "gfmLabelStartFootnote" c.gfmLabelStartFootnote
    ++ on "gfmStrikethrough" c.gfmStrikethrough ++ on "gfmTable" c.gfmTable
    ++ on "gfmTaskListItem" c.gfmTaskListItem
    ++ ["hardBreakEscape", "hardBreakTrailing", "headingAtx", "headingSetext"]
    ++ on "htmlFlow" c.htmlFlow ++ on "htmlText" c.htmlText
    ++ ["labelEnd", "labelStartImage", "labelStartLink", "listItem"]
    ++ on "mathFlow" c.mathFlow ++ on "mathText" c.mathText ++ ["thematicBreak"]

end Constructs

namespace ParseOptions

/-- The constructs that are switched on. -/
def constructs (options : ParseOptions) : Constructs where
  frontmatter := options.frontmatter
  htmlFlow := options.rawHtml
  htmlText := options.rawHtml
  gfmAutolinkLiteral := options.gfm
  gfmFootnoteDefinition := options.gfm
  gfmLabelStartFootnote := options.gfm
  gfmStrikethrough := options.gfm
  gfmTable := options.gfm
  gfmTaskListItem := options.gfm
  mathFlow := options.math
  mathText := options.math

/-- Formulas in a text may stand between single dollar signs. -/
def mathTextSingleDollar (options : ParseOptions) : Bool := options.math

/-- The options as JSON, in the order of their declaration. -/
def written (options : ParseOptions) : Json :=
  .obj [("gfm", .bool options.gfm), ("frontmatter", .bool options.frontmatter),
    ("raw_html", .bool options.rawHtml), ("math", .bool options.math)]

end ParseOptions

namespace Options

/-- The choices of the reader. -/
def parseOptions (options : Options) : ParseOptions :=
  ⟨options.gfm, options.frontmatter, options.allowRawHtml, options.math⟩

/-- The language of the diagrams that are marked, if any are. -/
def diagramLanguage? (options : Options) : Option String :=
  if options.mermaid then some options.mermaidLanguage else none

/-- The options as JSON, in the order of their declaration. -/
def written (options : Options) : Json :=
  .obj [("gfm", .bool options.gfm), ("frontmatter", .bool options.frontmatter),
    ("allow_raw_html", .bool options.allowRawHtml), ("math", .bool options.math),
    ("mermaid", .bool options.mermaid), ("mermaid_language", .str options.mermaidLanguage)]

end Options

end Hypermark
