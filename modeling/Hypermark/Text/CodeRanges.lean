/-!
# Sets of characters

A set of characters as ranges of numbers, read from a table of words: `ab` is one character and `ab-cd`
the characters from the first to the last, in hexadecimal digits.
-/

namespace Hypermark

namespace Text

/-- The words of a table between spaces and line feeds; `word` holds the word begun, in reverse. -/
def splitWords (word : List Char) : List Char → List (List Char)
  | [] => if word.isEmpty then [] else [word.reverse]
  | c :: cs =>
    if c = ' ' ∨ c = '\n' then
      if word.isEmpty then splitWords [] cs else word.reverse :: splitWords [] cs
    else splitWords (c :: word) cs

/-- The words of a table. -/
def words (table : String) : List (List Char) := splitWords [] table.toList

/-- A set of characters: those with a number in one of the ranges. -/
structure CodeRanges where
  ranges : Array (Nat × Nat)

namespace CodeRanges

/-- The value of a hexadecimal digit in lower case. -/
def digitValue (c : Char) : Nat :=
  if c.toNat < 0x3a then c.toNat - 0x30 else c.toNat - 0x57

/-- The number that hexadecimal digits write. -/
def number (digits : List Char) : Nat :=
  digits.foldl (fun n c => n * 16 + digitValue c) 0

/-- The range that a word writes. -/
def range (word : List Char) : Nat × Nat :=
  match word.splitOn '-' with
  | [first, last] => (number first, number last)
  | _ => (number word, number word)

/-- The set that a table writes. -/
def ofText (table : String) : CodeRanges :=
  ⟨((words table).map range).toArray⟩

/-- A character is in the set. -/
def contains (set : CodeRanges) (c : Char) : Bool :=
  set.ranges.any fun (first, last) => first ≤ c.toNat && c.toNat ≤ last

end CodeRanges

end Text

end Hypermark
