import Hypermark.Markdown.Block.List
import Hypermark.Markdown.Content
import Hypermark.Markdown.Document
import Hypermark.Markdown.Inline.Text
import Hypermark.Markdown.Tree

/-!
# Reading Markdown

A document is read from its blocks inwards.  When its containers and blocks are known, lines that belong
together are joined and read as definitions and paragraphs.  Then all definitions and footnotes are known,
and the texts in the blocks are read, and the strings in these texts.

* `Markdown.read` is the tree of a document.
-/

namespace Hypermark

namespace Markdown

/-- More steps than a loop over the cells of a document takes: each cell starts and ends a few parts at
most. -/
def Setting.boundFor (source : Source) : Nat := 4 * source.size + 16

/-- How the definitions and paragraphs of a document are read. -/
def Reading.content : Reading := ⟨Scan.content.scanner, State.trace⟩

/-- How definitions and paragraphs are read. -/
def Reading.ofContent : Grammar → Option Reading
  | .content => some .content
  | _ => none

/-- How texts and strings are read. -/
def Reading.ofText : Grammar → Option Reading
  | .text => some .text
  | .string => some .string
  | _ => none

/-- A check box may stand at the start of a text: it starts the first paragraph of an item, in front of
which only definitions and blank lines stand. -/
def mayCheckAt (setting : Setting) (t : Trace) (i : Nat) : Bool :=
  setting.constructs.gfmTaskListItem && 2 < i && (t[i - 1]?).any (·.opens .paragraph)
    && (t[t.skipPartsBack [.blankLine, .definition, .lineEnding, .blank] (i - 2)]?).any
      (·.closes .itemPrefix)

/-- Reads texts and strings until none is left. -/
def readTexts (source : Source) (setting : Setting) (t : Trace) : Nat → Except Fault Trace
  | 0 => .ok t
  | fuel + 1 => do
    let (t, findings) ← t.expand Reading.ofText fun i e =>
      { State.start source setting e.cell with mayCheck := mayCheckAt setting t i }
    if findings.any then readTexts source setting t fuel else return t

/-- The trace of a document. -/
def trace? (source : Source) (setting : Setting) : Except Fault Trace := do
  let (t, footnotes) ← Document.trace? source setting
  let t := Content.joinLines (ListRun.resolve source t)
  let (t, findings) ← t.expand Reading.ofContent fun _ e => State.start source setting e.cell
  let t := Table.resolve (Heading.resolve (Underline.resolve t))
  let setting := { setting with footnotes, definitions := findings.definitions }
  readTexts source setting t setting.bound

/-- The tree of a document. -/
def read (constructs : Constructs) (singleDollar : Bool) (text : String) :
    Except Fault Mdast.Node := do
  let source := Source.ofText text
  let t ← trace? source { constructs, singleDollar, bound := Setting.boundFor source }
  t.tree? source

end Markdown

end Hypermark
