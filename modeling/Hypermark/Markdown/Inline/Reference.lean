import Hypermark.Markdown.Scanner
import Hypermark.Text.Entity

/-!
# Escapes and character references

A backslash takes the meaning from a punctuation character or makes a line ending a break, and a
character reference stands for the characters it names.

* `Scan.escape`, `Scan.hardBreakEscape` and `Scan.reference` read them.
* `Reference.value` is what a reference stands for.
-/

namespace Hypermark

namespace Markdown

namespace Reference

/-- A number that no reference may stand for: controls other than blanks, surrogates, and numbers of no
character. -/
def isRefused (n : Nat) : Bool :=
  n ≤ 8 || n = 0x0b || (0x0e ≤ n && n ≤ 0x1f) || (0x7f ≤ n && n ≤ 0x9f)
    || (0xd800 ≤ n && n ≤ 0xdfff) || 0x10ffff < n

/-- The character of a numeric reference, the replacement character where there is none. -/
def numbered (n : Nat) : Char := if isRefused n then '\ufffd' else Char.ofNat n

/-- The value of a digit, also one above nine. -/
def digitValue (c : Char) : Nat :=
  let n := c.toNat
  if n ≤ 0x39 then n - 0x30 else if n ≤ 0x5a then n - 0x37 else n - 0x57

/-- The number that digits write. -/
def number (base : Nat) (digits : String) : Nat :=
  digits.toList.foldl (fun n c => n * base + digitValue c) 0

/-- What a reference stands for. -/
def value (base : ReferenceBase) (text : String) : String :=
  match base with
  | .named => String.ofList ((Text.entity? text).getD [])
  | .decimal => String.singleton (numbered (number 10 text))
  | .hexadecimal => String.singleton (numbered (number 16 text))

/-- The most characters of a reference between its marks. -/
def limit : ReferenceBase → Nat
  | .named => 31
  | .decimal => 7
  | .hexadecimal => 6

/-- The characters of a reference between its marks. -/
def isValue : ReferenceBase → Char → Bool
  | .named => Char.isAlphanum
  | .decimal => Char.isDigit
  | .hexadecimal => isHexDigit

end Reference

namespace Scan

/-- An escaped punctuation character. -/
def escape : Scan Unit := do
  enter .escape
  single .escapeMarker
  if (← peek).any isAsciiPunctuation then
    single .escapeValue
    exit .escape
  else fail

/-- A backslash at the end of a line. -/
def hardBreakEscape : Scan Unit := do
  enter (.hardBreak true)
  if (← next) = some '\n' then exit (.hardBreak true) else fail

/-- The value of a reference, and its end.  The register counts its characters. -/
def referenceValue (base : ReferenceBase) : Scan Unit := do
  enter (.referenceValue base)
  let s ← get
  skipUpTo (Reference.isValue base) (Reference.limit base - s.size)
  modify fun t => { t with size := t.size + (t.here - s.here) }
  let c ← peek
  let s ← get
  setSize 0
  let name := s.source.bytes (s.mark.offset - s.size) s.mark.offset
  if c ≠ some ';' || s.size = 0 then fail
  else if base = .named && (Text.entity? name).isNone then fail
  else
    exit (.referenceValue base)
    single .referenceMarker
    exit .reference

/-- A character reference. -/
def reference : Scan Unit := do
  enter .reference
  single .referenceMarker
  if (← peek) = some '#' then
    single .referenceMarker
    let c ← peek
    if c = some 'x' || c = some 'X' then
      single .referenceMarker
      let _ ← peek
      referenceValue .hexadecimal
    else referenceValue .decimal
  else referenceValue .named

end Scan

end Markdown

end Hypermark
