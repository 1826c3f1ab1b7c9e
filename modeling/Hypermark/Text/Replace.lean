/-!
# Replacing text

`replaceAll` replaces every occurrence of a pattern, from left to right and without overlap.  The empty
pattern occurs in front of every character and at the end.
-/

namespace Hypermark.Text

/-- Replaces the occurrences of a pattern that is not empty. -/
def replaceOccurrences (pattern new : List Char) (cs : List Char) : List Char :=
  match cs with
  | [] => []
  | c :: rest =>
    if pattern.isPrefixOf (c :: rest) then
      new ++ replaceOccurrences pattern new (rest.drop (pattern.length - 1))
    else c :: replaceOccurrences pattern new rest
termination_by cs.length
decreasing_by all_goals (simp only [List.length_drop, List.length_cons]; omega)

/-- Replaces every occurrence of a pattern. -/
def replaceAll (pattern new text : String) : String :=
  if pattern.isEmpty then
    new ++ String.ofList (text.toList.flatMap fun c => c :: new.toList)
  else String.ofList (replaceOccurrences pattern.toList new.toList text.toList)

end Hypermark.Text
