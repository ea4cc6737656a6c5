/-!
Substitution of a placeholder: every occurrence of a pattern in a text, read from left to right
and without overlaps, gives way to a value.
-/
namespace PatchSearch.Text

/-- Skips `skip` characters, then writes `value` for each occurrence of `pattern`. -/
def substituteFrom (pattern value : List Char) : Nat → List Char → List Char
  | _, [] => []
  | skip + 1, _ :: cs => substituteFrom pattern value skip cs
  | 0, c :: cs =>
    if pattern.isPrefixOf (c :: cs) then
      value ++ substituteFrom pattern value (pattern.length - 1) cs
    else c :: substituteFrom pattern value 0 cs

/-- The text with `value` for each occurrence of the non-empty `pattern`. -/
def substitute (pattern value text : List Char) : List Char :=
  substituteFrom pattern value 0 text

/-- `substitute` on strings. -/
def substituteString (pattern value text : String) : String :=
  String.ofList (substitute pattern.toList value.toList text.toList)

theorem substitute_nil (pattern value : List Char) : substitute pattern value [] = [] := by
  simp [substitute, substituteFrom]

end PatchSearch.Text
