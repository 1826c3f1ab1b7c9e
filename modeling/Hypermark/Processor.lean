import Hypermark.Conversion
import Hypermark.Error
import Hypermark.Hast.Html
import Hypermark.Markdown.Reader

/-!
# From text to HTML

A processor takes a text to HTML in a fixed order: its changes of the text, the reading as Markdown, its
changes of the Markdown tree, the conversion to hypertext, its changes of the hypertext tree, and the
writing as HTML.  Changes of one kind are made in the order in which they were added.

* `Processor.parse`, `Processor.run` and `Processor.process` stop after the Markdown tree, after the
  hypertext tree and after the HTML.
* `Processor.ofOptions` is the processor that options ask for.
-/

namespace Hypermark

/-- A place and a wording are all that is told of malformed Markdown. -/
def Markdown.Fault.toError (fault : Markdown.Fault) : ProcessError :=
  .parse fault.message ⟨fault.point.line, fault.point.column⟩

/-- The tree of a document. -/
def Markdown.parse (constructs : Constructs) (singleDollar : Bool) (text : String) :
    Except ProcessError Mdast.Node :=
  (Markdown.read constructs singleDollar text).mapError Markdown.Fault.toError

namespace ParseOptions

/-- The tree of a document. -/
def parse (options : ParseOptions) (text : String) : Except ProcessError Mdast.Node :=
  Markdown.parse options.constructs options.mathTextSingleDollar text

end ParseOptions

/-- What is done to a text on its way to HTML. -/
structure Processor where
  parseOptions : ParseOptions := {}
  conversion : ConversionOptions := {}
  /-- Changes of the text, the first one first. -/
  textSteps : List (String → String) := []
  /-- Changes of the Markdown tree, the first one first. -/
  markdownSteps : List (Mdast.Node → Mdast.Node) := []
  /-- Changes of the hypertext tree, the first one first. -/
  hypertextSteps : List (Hast.Node → Hast.Node) := []

namespace Processor

/-- Makes changes one after the other. -/
def runSteps {α : Type} (steps : List (α → α)) (x : α) : α := steps.foldl (fun x f => f x) x

/-- Adds changes of the hypertext tree behind the others. -/
def addHypertextSteps (p : Processor) (steps : List (Hast.Node → Hast.Node)) : Processor :=
  { p with hypertextSteps := p.hypertextSteps ++ steps }

/-- The processor that options ask for: it keeps raw HTML if that is allowed, and marks diagrams. -/
def ofOptions (options : Options) : Processor where
  parseOptions := options.parseOptions
  conversion := ⟨options.allowRawHtml⟩
  hypertextSteps := options.diagramLanguage?.toList.map Diagram.mark

/-- The Markdown tree of a text. -/
def parse (p : Processor) (text : String) : Except ProcessError (Logged Mdast.Node) := do
  let text := runSteps p.textSteps text
  let tree ← p.parseOptions.parse text
  return ⟨runSteps p.markdownSteps tree, [.parsed text.utf8ByteSize p.markdownSteps.length]⟩

/-- The hypertext tree of a text. -/
def run (p : Processor) (text : String) : Except ProcessError (Logged Hast.Node) := do
  let tree ← p.parse text
  let converted := tree.value.toHast p.conversion
  return ⟨runSteps p.hypertextSteps converted.value,
    tree.log ++ converted.log ++ [.transformed p.hypertextSteps.length]⟩

/-- The HTML of a text. -/
def process (p : Processor) (text : String) : Except ProcessError (Logged String) := do
  let tree ← p.run text
  return ⟨tree.value.html, tree.log ++ tree.value.htmlLog⟩

end Processor

/-- The HTML of a text, as options ask for it. -/
def Options.render (options : Options) (text : String) : Except ProcessError (Logged String) :=
  (Processor.ofOptions options).process text

end Hypermark
