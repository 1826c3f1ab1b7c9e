import Hypermark.Hast.Html

/-!
# Reading HTML

HTML is split into tags, texts and comments (`Html.read`).  The reader goes through the characters one
by one and knows in which part of the markup it is (`Mode`).  It is strict: what is no markup, or ends
within a tag or a comment, is not read at all.

A tree stands for a list of tokens of its own (`Node.tokens`), in which adjacent texts are joined.
-/

namespace Hypermark.Html

open Hast (Node Properties PropertyValue isAsciiBlank voidElements attributeName itemText)

/-! ## Tokens -/

/-- An attribute of a start tag; it may have no value. -/
structure Attribute where
  name : String
  value : Option String
deriving DecidableEq, Repr

/-- A piece of HTML. -/
inductive Token where
  | startTag (name : String) (attributes : List Attribute)
  | endTag (name : String)
  | text (value : String)
  | comment (value : String)
deriving DecidableEq, Repr

namespace Token

/-- A text, unless it is empty. -/
def ofText (value : String) : List Token := if value = "" then [] else [text value]

/-- Puts a text in front; it is joined with a text that is there already. -/
def putText (value : String) : List Token → List Token
  | text next :: tokens => text (value ++ next) :: tokens
  | tokens => ofText value ++ tokens

/-- Joins adjacent texts and leaves out empty ones. -/
def join : List Token → List Token
  | [] => []
  | text value :: tokens => putText value (join tokens)
  | token :: tokens => token :: join tokens

/-- Nothing changes when an empty text is put in front. -/
theorem putText_empty (tokens : List Token) : putText "" tokens = tokens := by
  unfold putText
  split
  · rw [String.empty_append]
  · rfl

/-- Two texts that are put in front are joined. -/
theorem putText_putText (first second : String) (tokens : List Token) :
    putText first (putText second tokens) = putText (first ++ second) tokens := by
  by_cases hempty : second = ""
  · rw [hempty, putText_empty, String.append_empty]
  · have hne : first ++ second ≠ "" := fun h => hempty (String.append_eq_empty_iff.mp h).2
    cases tokens with
    | nil => simp [putText, ofText, hempty, hne]
    | cons token tokens =>
      cases token with
      | text next => simp [putText, String.append_assoc]
      | startTag | endTag | comment => simp [putText, ofText, hempty, hne]

end Token

/-! ## Reading -/

/-- Replaces the references to the four characters that have one. -/
def decode : List Char → List Char
  | '&' :: 'a' :: 'm' :: 'p' :: ';' :: cs => '&' :: decode cs
  | '&' :: 'l' :: 't' :: ';' :: cs => '<' :: decode cs
  | '&' :: 'g' :: 't' :: ';' :: cs => '>' :: decode cs
  | '&' :: 'q' :: 'u' :: 'o' :: 't' :: ';' :: cs => '"' :: decode cs
  | c :: cs => c :: decode cs
  | [] => []

/-- A character of a name: no blank and nothing that has a meaning in a tag. -/
def isNameChar (c : Char) : Bool :=
  !(isAsciiBlank c || ['"', '\'', '=', '<', '>', '/'].contains c)

/-- A name that may stand in a tag. -/
def isName (name : String) : Bool := name ≠ "" && name.toList.all isNameChar

/-- The name of a tag: letters, digits and hyphens, the first of them a letter. -/
def isTagName (name : String) : Bool :=
  match name.toList with
  | [] => false
  | c :: cs => c.isAlpha && cs.all fun d => d.isAlphanum || d = '-'

/-- A start tag that has been begun. -/
structure Opening where
  name : String
  attributes : List Attribute

/-- Adds an attribute. -/
def Opening.add (tag : Opening) (name : List Char) (value : Option (List Char)) : Opening :=
  ⟨tag.name, tag.attributes ++ [⟨String.ofList name, value.map String.ofList⟩]⟩

/-- The part of the markup that the reader is in, with what has been read of it. -/
inductive Mode where
  | text (raw : List Char)
  /-- Behind the opening bracket of a tag. -/
  | opened
  | startName (name : List Char)
  /-- In a start tag, behind a blank. -/
  | inTag (tag : Opening)
  | attributeName (tag : Opening) (name : List Char)
  /-- Behind the equals sign of an attribute. -/
  | equals (tag : Opening) (name : List Char)
  | value (tag : Opening) (name : List Char) (quote : Char) (raw : List Char)
  /-- Behind the value of an attribute. -/
  | valueEnd (tag : Opening)
  | endName (name : List Char)
  /-- Behind the opening bracket and the exclamation mark of a comment. -/
  | declared
  /-- Behind the first hyphen of a comment. -/
  | hyphen
  | comment (raw : List Char)
  /-- Behind something that is no markup. -/
  | malformed

/-- The token of a text, unless it is empty. -/
def textToken (raw : List Char) : List Token :=
  if raw = [] then [] else [.text (String.ofList (decode raw))]

namespace Mode

/-- A start tag ends with a bracket, and goes on behind a blank. -/
def endOrGoOn (tag : Opening) (c : Char) : List Token × Mode :=
  if c = '>' then ([.startTag tag.name tag.attributes], text [])
  else if isAsciiBlank c then ([], inTag tag)
  else ([], malformed)

/-- The tokens that end with a character, and the part of the markup behind it. -/
def step (c : Char) : Mode → List Token × Mode
  | text raw => if c = '<' then (textToken raw, opened) else ([], text (raw ++ [c]))
  | opened =>
    if c = '/' then ([], endName [])
    else if c = '!' then ([], declared)
    else if c.isAlpha then ([], startName [c])
    else ([], malformed)
  | startName name =>
    if isNameChar c then ([], startName (name ++ [c])) else endOrGoOn ⟨String.ofList name, []⟩ c
  | inTag tag => if isNameChar c then ([], attributeName tag [c]) else endOrGoOn tag c
  | attributeName tag name =>
    if c = '=' then ([], equals tag name)
    else if isNameChar c then ([], attributeName tag (name ++ [c]))
    else endOrGoOn (tag.add name none) c
  | equals tag name =>
    if c = '"' ∨ c = '\'' then ([], value tag name c []) else ([], malformed)
  | value tag name quote raw =>
    if c = quote then ([], valueEnd (tag.add name (some (decode raw))))
    else ([], value tag name quote (raw ++ [c]))
  | valueEnd tag => endOrGoOn tag c
  | endName name =>
    if isNameChar c then ([], endName (name ++ [c]))
    else if c = '>' ∧ name ≠ [] then ([.endTag (String.ofList name)], text [])
    else ([], malformed)
  | declared => if c = '-' then ([], hyphen) else ([], malformed)
  | hyphen => if c = '-' then ([], comment []) else ([], malformed)
  | comment raw =>
    -- The comment ends with the first `-->`; its hyphens have been read already.
    if c = '>' ∧ ['-', '-'] <:+ raw then
      ([.comment (String.ofList (raw.dropLast.dropLast))], text [])
    else ([], comment (raw ++ [c]))
  | malformed => ([], malformed)

end Mode

/-- What has been read: whole tokens, and the part of the markup behind them. -/
structure Reader where
  tokens : List Token
  mode : Mode

namespace Reader

/-- Reads a character. -/
def step (reader : Reader) (c : Char) : Reader :=
  ⟨reader.tokens ++ (reader.mode.step c).1, (reader.mode.step c).2⟩

/-- Reads one character after the other. -/
def run (reader : Reader) (cs : List Char) : Reader := cs.foldl step reader

/-- The tokens, if the markup may end here. -/
def finish : Reader → Option (List Token)
  | ⟨tokens, .text raw⟩ => some (tokens ++ textToken raw)
  | _ => none

end Reader

/-- The tokens of HTML. -/
def read (source : String) : Option (List Token) :=
  (Reader.run ⟨[], .text []⟩ source.toList).finish

/-- A value may stand between quotes of either kind, and a tag in a comment is part of the comment. -/
example : read "<a b='1' c>x&lt;</a><!--<y>-->" = some [.startTag "a" [⟨"b", some "1"⟩, ⟨"c", none⟩],
    .text "x<", .endTag "a", .comment "<y>"] := by
  decide

end Hypermark.Html

namespace Hypermark.Hast

open Html (Attribute Token)

/-! ## The tokens of a tree -/

/-- The attribute of a property, if it has one. -/
def propertyAttributes (name : String) : PropertyValue → List Attribute
  | .null | .bool false => []
  | .bool true => [⟨attributeName name, none⟩]
  | .number value => [⟨attributeName name, some value.text⟩]
  | .string value => [⟨attributeName name, some value⟩]
  | .list items => [⟨attributeName name, some (" ".intercalate items)⟩]
  | .other (.arr items) => [⟨attributeName name, some (" ".intercalate (items.map itemText))⟩]
  | .other _ => []

/-- The attributes of properties, in their order. -/
def attributes (properties : Properties) : List Attribute :=
  properties.flatMap fun entry => propertyAttributes entry.1 entry.2

namespace Node

mutual

/-- The tags, texts and comments of a tree in document order. Raw markup has none of its own. -/
def pieces : Node → List Token
  | root children .. => piecesAll children
  | element tagName properties children .. =>
    .startTag tagName (attributes properties) ::
      if voidElements.contains tagName then [] else piecesAll children ++ [.endTag tagName]
  | text value .. => [.text value]
  | comment value .. => [.comment value]
  | raw .. | other _ => []

/-- The tags, texts and comments of a list of trees. -/
def piecesAll : List Node → List Token
  | [] => []
  | node :: nodes => node.pieces ++ piecesAll nodes

end

/-- The tokens of a tree. -/
def tokens (node : Node) : List Token := Token.join node.pieces

end Node

end Hypermark.Hast
