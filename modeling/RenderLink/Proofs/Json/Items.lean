/-
**Items of a list.**

The items of a list are read one after another, with a comma before each but the first. Where the
words of items stand up to the end of their list, each is read as its tree, and the first problem
ends the reading; and where items are read, the words of trees stand.

* `run_mark`, `Spaced.of_mark`: punctuation is taken where it stands.
* `Reads.elements_answers`: **items are read as their trees.**
* `Reads.items_spelled`: what is read as items are the words of trees.
-/

import RenderLink.Proofs.Json.Reads

namespace RenderLink.Json

variable {α : Type} {more words : List (List Char)} {text rest : List Char}

/-! ### Marks -/

/-- The first character behind the space is that of the first word. -/
theorem Spaced.dropped {c : Char} {word : List Char}
    (spaced : Spaced ((c :: word) :: words) text) (visible : Reader.isSpace c = false) :
    ∃ others, text.dropWhile Reader.isSpace = c :: others ∧
      Spaced ((c :: word) :: words) (c :: others) := by
  obtain ⟨rest, behind, met⟩ := spaced.dropWhile visible
  exact ⟨word ++ rest, met, @Spaced.cons [] _ _ _ rfl behind⟩

/-- Words behind the space are the words of the text. -/
theorem Spaced.of_dropped (behind : Spaced words (text.dropWhile Reader.isSpace)) :
    Spaced words text := by
  rw [← List.takeWhile_append_dropWhile (p := Reader.isSpace) (l := text)]
  generalize text.dropWhile Reader.isSpace = rest at behind
  have space : (text.takeWhile Reader.isSpace).all Reader.isSpace = true := List.all_takeWhile
  cases behind with
  | nil isSpace => exact .nil (by rw [List.all_append, space, isSpace]; rfl)
  | cons isSpace behind =>
    rw [← List.append_assoc]
    exact .cons (by rw [List.all_append, space, isSpace]; rfl) behind

/-- A mark that stands behind the space is taken. -/
theorem run_mark {c : Char} (spaced : Spaced ([c] :: more) text)
    (visible : Reader.isSpace c = false) :
    ∃ rest, Spaced more rest ∧
      (do Reader.space; Reader.expect [c]).run text = .ok ((), rest) := by
  obtain ⟨rest, behind, met⟩ := spaced.dropWhile visible
  refine ⟨rest, behind, ?_⟩
  rw [Reader.run_space_bind, met]
  exact Reader.run_expect_append [c] rest

/-- A mark that was taken stands behind the space. -/
theorem Spaced.of_mark {c : Char} {value : Unit}
    (taken : (do Reader.space; Reader.expect [c]).run text = .ok (value, rest))
    (behind : Spaced more rest) : Spaced ([c] :: more) text := by
  rw [Reader.run_space_bind] at taken
  exact .of_dropWhile (Reader.eq_of_expect taken) behind

/-- A mark is not taken where another word stands. -/
theorem run_mark_of_ne {c d : Char} {word : List Char} (spaced : Spaced ((d :: word) :: more) text)
    (visible : Reader.isSpace d = false) (differ : d ≠ c) :
    (do Reader.space; Reader.expect [c]).run text = .error .notJson := by
  obtain ⟨rest, -, met⟩ := spaced.dropWhile visible
  rw [Reader.run_space_bind, met, Reader.expect, Reader.run_next_bind, if_neg differ]
  rfl

/-! ### Items -/

/-- The way to an item goes past the comma before it. -/
theorem beforeElement_item {first : Bool} {tree : Tree}
    (spaced : Spaced (lead first ++ (tree.words ++ more)) text) :
    ∃ rest, Spaced (tree.words ++ more) rest ∧
      (beforeElement first).run text = .ok (true, rest) := by
  obtain ⟨c, word, others, shape, visible, notComma, notEnd⟩ := tree.exists_words
  rw [shape] at spaced ⊢
  unfold beforeElement
  cases first with
  | true =>
    obtain ⟨rest, met, behind⟩ := Spaced.dropped spaced visible
    refine ⟨c :: rest, behind, ?_⟩
    rw [Reader.run_space_bind, met, Reader.run_peek?_bind, List.head?_cons]
    split
    · next absent => cases absent
    · next same => cases same; exact absurd rfl notEnd
    · next same => cases same; exact absurd rfl notComma
    · rfl
  | false =>
    obtain ⟨after, spaced, met⟩ := Spaced.dropWhile (c := ',') spaced (by decide)
    obtain ⟨rest, again, behind⟩ := Spaced.dropped spaced visible
    refine ⟨c :: rest, behind, ?_⟩
    rw [Reader.run_space_bind, met, Reader.run_peek?_bind, List.head?_cons]
    split
    · next absent => cases absent
    · next same => cases same
    · rw [if_neg Bool.false_ne_true, Reader.run_next_bind, Reader.run_space_bind,
        List.nil_append, again, Reader.run_peek?_bind, List.head?_cons]
      split
      · next absent => cases absent
      · next same => cases same; exact absurd rfl notEnd
      · rfl
    · next differs same => exact (differs (Option.some.inj same).symm).elim

/-- The way to an item ends at the end of the list. -/
theorem beforeElement_end (first : Bool) (spaced : Spaced ([']'] :: more) text) :
    ∃ rest, Spaced ([']'] :: more) rest ∧ (beforeElement first).run text = .ok (false, rest) := by
  obtain ⟨rest, met, behind⟩ := Spaced.dropped spaced (by decide)
  refine ⟨']' :: rest, behind, ?_⟩
  rw [beforeElement, Reader.run_space_bind, met]
  rfl

/-- Where there is an item, it stands behind its comma. -/
theorem Spaced.of_beforeElement {first : Bool}
    (reached : (beforeElement first).run text = .ok (true, rest)) (behind : Spaced words rest) :
    Spaced (lead first ++ words) text := by
  rw [beforeElement, Reader.run_space_bind, Reader.run_peek?_bind] at reached
  split at reached
  · cases reached
  · cases reached
  · next first_ =>
    cases first with
    | true => cases reached; exact .of_dropped behind
    | false =>
      obtain ⟨after, met⟩ := List.head?_eq_some_iff.mp first_
      rw [if_neg Bool.false_ne_true, met, Reader.run_next_bind,
        Reader.run_space_bind, Reader.run_peek?_bind] at reached
      split at reached
      · cases reached
      · cases reached
      · cases reached
        exact .of_dropWhile (show _ = [','] ++ _ from met) (.of_dropped behind)
  · cases first with
    | true => cases reached; exact .of_dropped behind
    | false => cases reached

/-- Where there is no item, the list ends. -/
theorem end_of_beforeElement {first : Bool}
    (reached : (beforeElement first).run text = .ok (false, rest)) :
    text.dropWhile Reader.isSpace = rest ∧ rest.head? = some ']' := by
  rw [beforeElement, Reader.run_space_bind, Reader.run_peek?_bind] at reached
  split at reached
  · cases reached
  · next first_ => cases reached; exact ⟨rfl, first_⟩
  · next first_ =>
    cases first with
    | true => cases reached
    | false =>
      obtain ⟨after, met⟩ := List.head?_eq_some_iff.mp first_
      rw [if_neg Bool.false_ne_true, met, Reader.run_next_bind,
        Reader.run_space_bind, Reader.run_peek?_bind] at reached
      split at reached <;> cases reached
  · cases first <;> cases reached

/-- A list is met at its opening bracket. -/
theorem Spaced.read_list {items : List Tree}
    (spaced : Spaced ((Tree.list items).words ++ more) text) :
    ∃ rest, Spaced (itemWords true items ++ [']'] :: more) rest ∧
      ∀ {α : Type} (decoder : Decoder α), decoder.read.run text = (decoder '[').run rest := by
  obtain ⟨rest, behind, met⟩ := Spaced.read (c := '[') spaced (by decide)
  refine ⟨rest, ?_, met⟩
  rwa [← List.singleton_append, ← List.append_assoc]

/-- A list stands where its opening bracket was met. -/
theorem Spaced.of_list {items : List Tree} {others : List Char}
    (met : text.dropWhile Reader.isSpace = '[' :: others)
    (behind : Spaced (itemWords true items ++ [']'] :: more) others) :
    Spaced ((Tree.list items).words ++ more) text := by
  refine .of_dropWhile (show _ = ['['] ++ _ from met) ?_
  rwa [← List.singleton_append, ← List.append_assoc] at behind

/-- The items of a list up to its closing bracket. -/
def elementsReader (decoder : Decoder α) (first : Bool) : Reader (List α) where
  run := elementsFrom decoder first
  notLonger := elementsFrom_notLonger decoder

/-- Items are read one after another. -/
theorem elementsReader_run (decoder : Decoder α) (first : Bool) (text : List Char) :
    (elementsReader decoder first).run text =
      (do
        if ← beforeElement first then
          let value ← decoder.read
          let values ← elementsReader decoder false
          pure (value :: values)
        else pure []).run text := by
  show elementsFrom decoder first text = _
  rw [Reader.run_bind]
  unfold elementsFrom
  split
  · next failed => rw [failed]
  · next ended => rw [ended]; rfl
  · next between reached =>
    rw [reached]
    dsimp only
    rw [if_pos rfl, Reader.run_bind]
    split
    · next failed => rw [failed]
    · next value after read =>
      rw [read]
      dsimp only
      rw [Reader.run_bind]
      rw [elementsReader]
      dsimp only
      cases elementsFrom decoder false after <;> rfl

/-- **Items are read as their trees.** -/
theorem Reads.elements_answers {decoder : Decoder α} {meaning : Tree → Except ReadError α}
    (reads : Reads decoder meaning) {first : Bool} {items : List Tree}
    (spaced : Spaced (itemWords first items ++ [']'] :: more) text) :
    Answers ([']'] :: more) (items.mapM meaning) ((elementsReader decoder first).run text) := by
  rw [elementsReader_run]
  induction items generalizing first text with
  | nil =>
    obtain ⟨rest, behind, ended⟩ := beforeElement_end first spaced
    rw [Reader.run_bind_of_ok ended]
    exact .ok behind
  | cons item items ih =>
    rw [itemWords, List.append_assoc, List.append_assoc] at spaced
    obtain ⟨rest, behind, reached⟩ := beforeElement_item spaced
    rw [Reader.run_bind_of_ok reached, List.mapM_cons]
    refine Answers.bind (reads.agrees (closing_items items more) behind) fun _ behind => ?_
    refine Answers.bind (elementsReader_run decoder false _ ▸ ih behind) fun _ behind => ?_
    exact .ok behind

/-- Items that are read are those of trees. -/
theorem Reads.items_spelled {decoder : Decoder α} {meaning : Tree → Except ReadError α}
    (reads : Reads decoder meaning) (first : Bool) {values : List α}
    (read : (elementsReader decoder first).run text = .ok (values, rest))
    (behind : Spaced words rest) :
    ∃ items : List Tree, Spaced (itemWords first items ++ words) text := by
  induction values generalizing first text with
  | nil =>
    rw [elementsReader_run] at read
    obtain ⟨found, between, reached, taken⟩ := Reader.run_bind_eq_ok_iff.mp read
    cases found with
    | true =>
      obtain ⟨value, after, -, continued⟩ := Reader.run_bind_eq_ok_iff.mp taken
      obtain ⟨values, last, -, ended⟩ := Reader.run_bind_eq_ok_iff.mp continued
      cases ended
    | false =>
      cases taken
      obtain ⟨rfl, -⟩ := end_of_beforeElement reached
      exact ⟨[], .of_dropped behind⟩
  | cons value values ih =>
    rw [elementsReader_run] at read
    obtain ⟨found, between, reached, taken⟩ := Reader.run_bind_eq_ok_iff.mp read
    cases found with
    | true =>
      obtain ⟨value, after, element, continued⟩ := Reader.run_bind_eq_ok_iff.mp taken
      obtain ⟨values, last, others, ended⟩ := Reader.run_bind_eq_ok_iff.mp continued
      cases ended
      obtain ⟨items, spaced⟩ := ih false others
      obtain ⟨item, spaced⟩ := reads.spelled element spaced
      refine ⟨item :: items, ?_⟩
      rw [itemWords, List.append_assoc, List.append_assoc]
      exact .of_beforeElement reached spaced
    | false => cases taken

end RenderLink.Json
