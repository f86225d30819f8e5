/-
**Occurrences of a text in a template.**

They are found from left to right without overlaps, and their ranges count UTF-16 units.
-/

import RenderLink.Text.Utf16
import RenderLink.Text.Word

namespace RenderLink.Bundle

open Text

/-- The ranges, in UTF-16 units, of the occurrences of a text that do not overlap, from left to
right. -/
def occurrences (first : Char) (others : List Char) (offset : Nat) (text : List Char) :
    List (Nat × Nat) :=
  match text with
  | [] => []
  | c :: rest =>
    match _found : afterWord? (first :: others) (c :: rest) with
    | some behind =>
      let stop := offset + units (first :: others)
      (offset, stop) :: occurrences first others stop behind
    | none => occurrences first others (offset + unitCount c) rest
termination_by text.length
decreasing_by
  · have whole := congrArg List.length (afterWord?_eq_some_iff.mp _found)
    simp only [List.length_cons, List.length_append] at whole ⊢
    omega
  · simp

/-- The ranges of the occurrences of a text; an empty text has none. -/
def occurrencesOf (needle source : String) : List (Nat × Nat) :=
  match needle.toList with
  | [] => []
  | first :: others => occurrences first others 0 source.toList

end RenderLink.Bundle
