/-!
# Blanks

The blank characters of Unicode, and the words of a text between them.
-/

namespace Hypermark

namespace Text

/-- The characters with the Unicode property of white space. -/
def isBlank (c : Char) : Bool :=
  let n := c.toNat
  (9 ≤ n && n ≤ 13) || n = 0x20 || n = 0x85 || n = 0xa0 || n = 0x1680 || (0x2000 ≤ n && n ≤ 0x200a)
    || n = 0x2028 || n = 0x2029 || n = 0x202f || n = 0x205f || n = 0x3000

/-- The first word of a text, if it has one. -/
def firstWord? (s : String) : Option String :=
  match (s.toList.dropWhile isBlank).takeWhile fun c => !isBlank c with
  | [] => none
  | word => some (String.ofList word)

end Text

end Hypermark
