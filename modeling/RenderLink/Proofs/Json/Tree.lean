/-
**The tree of a text.**

A text is a row of words with white space between them, and the words are those of a tree. A number
or a string of the tree is kept as it is written: one that is passed over need not have a value, so
the tree of a text may be none of a value.

What stands behind a tree ends it: nothing, a comma, or the end of a bracket (`Closing`).

* `Spaced.read`: space is skipped and the first word is met.
* `Spaced.of_dropWhile`: a text whose first word has been met begins with it.
* `Tree.json?`: **the value of a tree**, if every number and string has one and the brackets do not
  nest too deep.
-/

import RenderLink.Json.Decode
import RenderLink.Proofs.Json.NumberText
import RenderLink.Proofs.Json.QuotedText

namespace RenderLink.Json

/-! ### Words with space between them -/

/-- The words of a text, in their order, with nothing but space between and around them. -/
inductive Spaced : List (List Char) → List Char → Prop
  | nil {space : List Char} (isSpace : space.all Reader.isSpace = true) : Spaced [] space
  | cons {space word text : List Char} {words : List (List Char)}
      (isSpace : space.all Reader.isSpace = true) (behind : Spaced words text) :
      Spaced (word :: words) (space ++ (word ++ text))

namespace Spaced

/-- Words stand in the text that joins them. -/
theorem flatten (words : List (List Char)) : Spaced words words.flatten := by
  induction words with
  | nil => exact .nil rfl
  | cons word words ih => exact @Spaced.cons [] _ _ _ rfl ih

/-- Words stand in the text that puts a blank before each. -/
theorem blanks (words : List (List Char)) : Spaced words (words.flatMap (' ' :: ·)) := by
  induction words with
  | nil => exact .nil rfl
  | cons word words ih => exact @Spaced.cons [' '] _ _ _ rfl ih

/-- A text without words is space. -/
theorem isSpace {text : List Char} (spaced : Spaced [] text) : text.all Reader.isSpace = true := by
  cases spaced with
  | nil isSpace => exact isSpace

/-- Space before the first word is skipped. -/
theorem dropWhile {c : Char} {word text : List Char} {words : List (List Char)}
    (spaced : Spaced ((c :: word) :: words) text) (visible : Reader.isSpace c = false) :
    ∃ rest, Spaced words rest ∧ text.dropWhile Reader.isSpace = c :: (word ++ rest) := by
  cases spaced with
  | @cons space _ rest _ isSpace behind =>
    refine ⟨rest, behind, ?_⟩
    rw [List.dropWhile_append_of_pos (List.all_eq_true.mp isSpace), List.cons_append,
      List.dropWhile_cons_of_neg (by simp [visible])]

/-- **Space is skipped and the first word is met.** -/
theorem read {c : Char} {word text : List Char} {words : List (List Char)}
    (spaced : Spaced ((c :: word) :: words) text) (visible : Reader.isSpace c = false) :
    ∃ rest, Spaced words rest ∧ ∀ {α : Type} (decoder : Decoder α),
      decoder.read.run text = (decoder c).run (word ++ rest) := by
  obtain ⟨rest, behind, dropped⟩ := spaced.dropWhile visible
  refine ⟨rest, behind, fun decoder => ?_⟩
  rw [Decoder.read, Reader.run_space_bind, dropped, Reader.run_next_bind]

/-- **A text whose first word has been met begins with it.** -/
theorem of_dropWhile {word text rest : List Char} {words : List (List Char)}
    (met : text.dropWhile Reader.isSpace = word ++ rest) (behind : Spaced words rest) :
    Spaced (word :: words) text := by
  rw [← List.takeWhile_append_dropWhile (p := Reader.isSpace) (l := text), met]
  exact .cons (List.all_takeWhile (l := text)) behind

end Spaced

/-- Space does not continue a number. -/
theorem isSpace_stops {c : Char} (isSpace : Reader.isSpace c = true) :
    c.isDigit = false ∧ c ≠ '.' ∧ c ≠ 'e' ∧ c ≠ 'E' := by
  simp only [Reader.isSpace, Bool.or_eq_true, decide_eq_true_eq] at isSpace
  rcases isSpace with ((rfl | rfl) | rfl) | rfl <;> decide

/-- What is read begins behind the space. -/
theorem Decoder.exists_of_read {α : Type} {decoder : Decoder α} {text rest : List Char} {value : α}
    (read : decoder.read.run text = .ok (value, rest)) :
    ∃ head others, text.dropWhile Reader.isSpace = head :: others ∧
      (decoder head).run others = .ok (value, rest) := by
  rw [Decoder.read, Reader.run_space_bind] at read
  cases met : text.dropWhile Reader.isSpace with
  | nil =>
    rw [met] at read
    cases read
  | cons head others =>
    rw [met, Reader.run_next_bind] at read
    exact ⟨head, others, rfl, read⟩

/-! ### Trees -/

/-- A text without its white space. -/
inductive Tree where
  | null
  | bool (value : Bool)
  | number (text : NumberText)
  | string (text : StringText)
  | list (items : List Tree)
  | object (members : List (StringText × Tree))

/-- A string between its quotation marks. -/
def StringText.word (string : StringText) : List Char := '"' :: (string.chars ++ ['"'])

/-- What stands before an item or a member: a comma, but before the first one nothing. -/
def lead (first : Bool) : List (List Char) := if first then [] else [[',']]

@[simp] theorem lead_true : lead true = [] := rfl

@[simp] theorem lead_false : lead false = [[',']] := rfl

mutual

/-- The words of a tree. -/
def Tree.words : Tree → List (List Char)
  | .null => [['n', 'u', 'l', 'l']]
  | .bool true => [['t', 'r', 'u', 'e']]
  | .bool false => [['f', 'a', 'l', 's', 'e']]
  | .number text => [text.chars]
  | .string text => [text.word]
  | .list items => ['['] :: (itemWords true items ++ [[']']])
  | .object members => ['\x7b'] :: (memberWords true members ++ [['\x7d']])
termination_by structural tree => tree

/-- The words of items, with a comma before each. -/
def itemWords (first : Bool) : List Tree → List (List Char)
  | [] => []
  | item :: items => lead first ++ (item.words ++ itemWords false items)
termination_by structural items => items

/-- The words of members, with a comma before each. -/
def memberWords (first : Bool) : List (StringText × Tree) → List (List Char)
  | [] => []
  | (key, value) :: members =>
    lead first ++ (key.word :: [':'] :: (value.words ++ memberWords false members))
termination_by structural members => members

end

/-- Space is not what a number may begin with. -/
theorem visible_of_start {c : Char} (start : c = '-' ∨ c.isDigit = true) :
    Reader.isSpace c = false := by
  rcases start with rfl | digit
  · rfl
  · refine Bool.eq_false_iff.mpr fun isSpace => ?_
    rw [(isSpace_stops isSpace).1] at digit
    cases digit

/-- What a number may begin with, compared with another character. -/
theorem ne_of_start {c d : Char} (start : c = '-' ∨ c.isDigit = true)
    (other : d ≠ '-' ∧ d.isDigit = false) : c ≠ d := by
  rintro rfl
  rcases start with sign | digit
  · exact other.1 sign
  · rw [other.2] at digit
    cases digit

namespace Tree

/-- Whether a text is a way to write a tree. -/
def Spells (tree : Tree) (source : String) : Prop := Spaced tree.words source.toList

/-- The first word of a tree is no punctuation that could stand behind a value. -/
theorem exists_words (tree : Tree) :
    ∃ c word words, tree.words = (c :: word) :: words ∧ Reader.isSpace c = false ∧ c ≠ ',' ∧
      c ≠ ']' := by
  cases tree with
  | null => exact ⟨'n', _, _, rfl, by decide⟩
  | bool value =>
    cases value with
    | true => exact ⟨'t', _, _, rfl, by decide⟩
    | false => exact ⟨'f', _, _, rfl, by decide⟩
  | number text =>
    obtain ⟨c, others, shape, start⟩ := text.exists_cons
    exact ⟨c, others, [], by rw [words, shape], visible_of_start start,
      ne_of_start start (by decide), ne_of_start start (by decide)⟩
  | string text => exact ⟨'"', _, _, rfl, by decide⟩
  | list items => exact ⟨'[', _, _, rfl, by decide⟩
  | object members => exact ⟨'\x7b', _, _, rfl, by decide⟩

end Tree

/-- What can stand behind a value: nothing, a comma, or the end of a bracket. -/
def Closing (words : List (List Char)) : Prop :=
  ∀ word ∈ words.head?, word = [','] ∨ word = [']'] ∨ word = ['\x7d']

@[simp] theorem closing_nil : Closing [] := fun _ first => by cases first

@[simp] theorem closing_comma (words : List (List Char)) : Closing ([','] :: words) := by
  simp [Closing]

@[simp] theorem closing_bracket (words : List (List Char)) : Closing ([']'] :: words) := by
  simp [Closing]

@[simp] theorem closing_brace (words : List (List Char)) : Closing (['\x7d'] :: words) := by
  simp [Closing]

/-- Items that are not the first ones end a value, and so does the end of their list. -/
theorem closing_items (items : List Tree) (words : List (List Char)) :
    Closing (itemWords false items ++ [']'] :: words) := by
  cases items <;> simp [itemWords]

/-- Members that are not the first ones end a value, and so does the end of their object. -/
theorem closing_members (members : List (StringText × Tree)) (words : List (List Char)) :
    Closing (memberWords false members ++ ['\x7d'] :: words) := by
  cases members <;> simp [memberWords]

/-- What stands behind a value does not continue a number. -/
theorem Closing.stops {words : List (List Char)} {text : List Char} (closing : Closing words)
    (spaced : Spaced words text) : Stops text := by
  intro c first
  cases spaced with
  | nil isSpace => exact isSpace_stops (List.all_eq_true.mp isSpace c (List.mem_of_mem_head? first))
  | @cons between word text words isSpace behind =>
    cases between with
    | nil =>
      rcases closing word rfl with rfl | rfl | rfl <;> cases first <;> decide
    | cons found between =>
      cases first
      exact isSpace_stops (List.all_eq_true.mp isSpace _ List.mem_cons_self)

/-! ### Values -/

namespace Tree

/-- The key and the value of a member, with a value for its tree. -/
def member? {α : Type} (value? : Tree → Option α) (member : StringText × Tree) :
    Option (String × α) :=
  member.1.value?.bind fun key => (value? member.2).map fun value => (key, value)

/-- The value of a tree whose brackets nest no deeper than a number of levels. -/
def json? : Nat → Tree → Option Json
  | _, .null => some .null
  | _, .bool value => some (.bool value)
  | _, .number text => text.value?.map .number
  | _, .string text => text.value?.map .string
  | 0, .list _ => none
  | 0, .object _ => none
  | levels + 1, .list items => (items.mapM (json? levels)).map .list
  | levels + 1, .object members =>
    (members.mapM (member? (json? levels))).map .object

end Tree

end RenderLink.Json
