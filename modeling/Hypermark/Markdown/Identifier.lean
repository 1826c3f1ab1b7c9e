import Hypermark.Markdown.Character
import Hypermark.Text.Letters

/-!
# Identifiers

Two labels mean the same if they have the same identifier: case and the amount of blanks do not count.
-/

namespace Hypermark

namespace Markdown

namespace Identifier

/-- A blank between the words of a label. -/
def isBreak (c : Char) : Bool := isSpaceOrEnding c || c = '\r'

/-- The words of a text between blanks; `word` holds the word begun, in reverse. -/
def words (word : List Char) : List Char → List (List Char)
  | [] => if word.isEmpty then [] else [word.reverse]
  | c :: cs =>
    if isBreak c then if word.isEmpty then words [] cs else word.reverse :: words [] cs
    else words (c :: word) cs

/-- Puts words together with single spaces.  When the text starts with a word, the second one follows
it without a space. -/
def join (starts : Bool) : List (List Char) → List Char
  | [] => []
  | first :: rest =>
    match starts, rest with
    | true, second :: rest => first ++ second ++ (rest.map (' ' :: ·)).flatten
    | _, rest => first ++ (rest.map (' ' :: ·)).flatten

/-- The identifier of a label. -/
def ofLabel (label : String) : String :=
  let cs := label.toList
  let starts := cs.head?.any fun c => !isBreak c
  String.ofList (Text.capital (Text.small (join starts (words [] cs))))

/-- The form in which a node has its identifier. -/
def name (identifier : String) : String := String.ofList (Text.small identifier.toList)

end Identifier

end Markdown

end Hypermark
