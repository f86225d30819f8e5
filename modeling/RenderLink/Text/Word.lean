/-
**A word in a text.**

Where a text begins with a word, and where a word first occurs in it.

* `afterWord?_eq_some_iff`: a text that begins with a word is the word and the text behind it.
* `splitAtWord_eq`: the text before the first occurrence and the text from it on are the whole.
-/

namespace RenderLink.Text

/-- The text behind a word that it begins with. -/
def afterWord? : List Char → List Char → Option (List Char)
  | [], text => some text
  | _ :: _, [] => none
  | c :: word, d :: text => if c = d then afterWord? word text else none

/-- A text that begins with a word is the word and the text behind it. -/
theorem afterWord?_eq_some_iff {word text rest : List Char} :
    afterWord? word text = some rest ↔ text = word ++ rest := by
  induction word generalizing text with
  | nil => simp [afterWord?]
  | cons c word ih =>
    cases text with
    | nil => simp [afterWord?]
    | cons d text =>
      by_cases same : c = d
      · simp [afterWord?, same, ih]
      · simp [afterWord?, same, Ne.symm same]

/-- The text before the first occurrence of a word, and the text from it on. -/
def splitAtWord (word : List Char) : List Char → Option (List Char × List Char)
  | [] => if word.isEmpty then some ([], []) else none
  | c :: text =>
    if (afterWord? word (c :: text)).isSome then some ([], c :: text)
    else (splitAtWord word text).map fun (before, found) => (c :: before, found)

/-- The text before the first occurrence and the text from it on are the whole. -/
theorem splitAtWord_eq {word text before found : List Char}
    (split : splitAtWord word text = some (before, found)) : before ++ found = text := by
  induction text generalizing before with
  | nil =>
    simp only [splitAtWord] at split
    split at split
    · cases split; rfl
    · cases split
  | cons c text ih =>
    simp only [splitAtWord] at split
    split at split
    · cases split; rfl
    · obtain ⟨⟨before', found'⟩, tail, equal⟩ := Option.map_eq_some_iff.mp split
      cases equal
      simp [ih tail]

end RenderLink.Text
