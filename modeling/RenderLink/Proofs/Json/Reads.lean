/-
**What a decoder makes of a tree.**

A decoder has a meaning: the value of every tree, or the problem that is met first. Where the text
of a tree stands, the decoder gives what the tree means and leaves what stands behind; and where it
gives a value at all, the text of some tree stands (`Reads`). Decoders are built from others, and so
are their meanings.

* `Reads.decode_eq`: **a text is decoded as its tree.**
* `Reads.exists_tree`: **a text that is decoded has a tree.**
* `reads_boolean`, `reads_text`, `Reads.optional`, `Reads.map`: the meanings of small decoders.
-/

import RenderLink.Proofs.Json.Tree

namespace RenderLink.Json

variable {α β : Type}

/-! ### Outcomes -/

/-- A reading with a given outcome that leaves given words. -/
inductive Answers (more : List (List Char)) : Except ReadError α → Reading α → Prop
  | ok {value : α} {rest : List Char} (behind : Spaced more rest) :
      Answers more (.ok value) (.ok (value, rest))
  | error (error : ReadError) : Answers more (.error error) (.error error)

namespace Answers

variable {more middle : List (List Char)}

/-- A second step goes on where the first one ended. -/
theorem bind {outcome : Except ReadError α} {reader : Reader α} {text : List Char}
    {meaning : α → Except ReadError β} {next : α → Reader β}
    (first : Answers middle outcome (reader.run text))
    (second : ∀ {value rest}, outcome = .ok value → Spaced middle rest →
      Answers more (meaning value) ((next value).run rest)) :
    Answers more (outcome >>= meaning) ((reader >>= next).run text) := by
  rw [Reader.run_bind]
  generalize reader.run text = reading at first
  cases first with
  | ok behind => exact second rfl behind
  | error error => exact .error error

theorem map {outcome : Except ReadError α} {reader : Reader α} {text : List Char} (f : α → β)
    (first : Answers more outcome (reader.run text)) :
    Answers more (outcome.map f) ((do let value ← reader; pure (f value)).run text) := by
  rw [Reader.run_bind]
  generalize reader.run text = reading at first
  cases first with
  | ok behind => exact .ok behind
  | error error => exact .error error

end Answers

/-! ### Meanings -/

/-- The decoder gives what a tree means, and it gives values to the texts of trees only. -/
structure Reads (decoder : Decoder α) (meaning : Tree → Except ReadError α) : Prop where
  agrees : ∀ {tree : Tree} {more : List (List Char)} {text : List Char}, Closing more →
    Spaced (tree.words ++ more) text → Answers more (meaning tree) (decoder.read.run text)
  spelled : ∀ {more : List (List Char)} {text rest : List Char} {value : α},
    decoder.read.run text = .ok (value, rest) → Spaced more rest →
      ∃ tree : Tree, Spaced (tree.words ++ more) text

/-- **A text is decoded as its tree.** -/
theorem Reads.decode_eq {decoder : Decoder α} {meaning : Tree → Except ReadError α}
    (reads : Reads decoder meaning) {tree : Tree} {source : String} (spells : tree.Spells source) :
    decode decoder source = meaning tree := by
  have spaced : Spaced (tree.words ++ []) source.toList := by
    rw [List.append_nil]
    exact spells
  have answers := reads.agrees closing_nil spaced
  unfold decode
  generalize decoder.read.run source.toList = reading at answers
  generalize meaning tree = outcome at answers
  cases answers with
  | ok behind =>
    dsimp only
    rw [if_pos behind.isSpace]
  | error error => rfl

/-- **A text that is decoded has a tree.** -/
theorem Reads.exists_tree {decoder : Decoder α} {meaning : Tree → Except ReadError α}
    (reads : Reads decoder meaning) {source : String} {value : α}
    (decoded : decode decoder source = .ok value) :
    ∃ tree : Tree, tree.Spells source ∧ meaning tree = .ok value := by
  obtain ⟨rest, read, spaces⟩ := decode_eq_ok_iff.mp decoded
  obtain ⟨tree, spaced⟩ := reads.spelled read (.nil spaces)
  rw [List.append_nil] at spaced
  exact ⟨tree, spaced, (reads.decode_eq spaced).symm.trans decoded⟩

/-! ### First characters -/

/-- A decoder reads what it is asked about. -/
theorem Decoder.read_of_met {decoder : Decoder α} {head : Char} {text others : List Char}
    {reading : Reading α} (met : text.dropWhile Reader.isSpace = head :: others)
    (found : (decoder head).run others = reading) : decoder.read.run text = reading := by
  rw [Decoder.read, Reader.run_space_bind, met, Reader.run_next_bind, found]

/-- A word that was expected stands behind the space. -/
theorem Spaced.of_expect {head : Char} {word text others rest : List Char}
    {words : List (List Char)} {value found : α}
    (met : text.dropWhile Reader.isSpace = head :: others)
    (taken : (do Reader.expect word; pure value).run others = .ok (found, rest))
    (behind : Spaced words rest) : Spaced ((head :: word) :: words) text := by
  obtain ⟨_, expected, -⟩ := Reader.run_bind_pure_eq_ok_iff.mp taken
  rw [Reader.eq_of_expect expected] at met
  exact .of_dropWhile met behind

/-- A number is met at its first character. -/
theorem Spaced.read_number {number : NumberText} {words : List (List Char)} {text : List Char}
    (spaced : Spaced (number.chars :: words) text) :
    ∃ first others rest, number.chars = first :: others ∧ (first = '-' ∨ first.isDigit = true) ∧
      Spaced words rest ∧ ∀ {α : Type} (decoder : Decoder α),
        decoder.read.run text = (decoder first).run (others ++ rest) := by
  obtain ⟨first, others, shape, start⟩ := number.exists_cons
  rw [shape] at spaced
  obtain ⟨rest, behind, met⟩ := spaced.read (visible_of_start start)
  exact ⟨first, others, rest, shape, start, behind, met⟩

/-- A string is met at its opening quotation mark. -/
theorem Spaced.read_string {string : StringText} {words : List (List Char)} {text : List Char}
    (spaced : Spaced (string.word :: words) text) :
    ∃ rest, Spaced words rest ∧ ∀ {α : Type} (decoder : Decoder α),
      decoder.read.run text = (decoder '"').run (string.chars ++ '"' :: rest) := by
  obtain ⟨rest, behind, met⟩ := Spaced.read (c := '"') spaced (by decide)
  refine ⟨rest, behind, fun decoder => ?_⟩
  rw [met, List.append_assoc, List.singleton_append]

/-- A number gives its value to the step behind it. -/
theorem Answers.number {number : NumberText} {first : Char} {others rest : List Char}
    {more : List (List Char)} {meaning : Number → Except ReadError α} {next : Number → Reader α}
    (shape : number.chars = first :: others) (stops : Stops rest)
    (second : ∀ value, Answers more (meaning value) ((next value).run rest)) :
    Answers more (kept number.value? >>= meaning)
      ((numeral first >>= next).run (others ++ rest)) := by
  rw [Reader.run_bind, number.numeral_run shape stops]
  cases number.value? with
  | none => exact .error .notJson
  | some value => exact second value

/-- A string gives its value to the step behind it. -/
theorem Answers.string {string : StringText} {rest : List Char} {more : List (List Char)}
    {meaning : String → Except ReadError α} {next : List Char → Reader α}
    (second : ∀ value, Answers more (meaning value) ((next value.toList).run rest)) :
    Answers more (kept string.value? >>= meaning)
      ((stringBody >>= next).run (string.chars ++ '"' :: rest)) := by
  rw [Reader.run_bind, string.stringBody_run]
  cases string.value? with
  | none => exact .error .notJson
  | some value => exact second value

namespace Tree

/-- The first character of a tree. -/
def head : Tree → Char
  | .null => 'n'
  | .bool true => 't'
  | .bool false => 'f'
  | .number text => text.chars.head?.getD '0'
  | .string _ => '"'
  | .list _ => '['
  | .object _ => '\x7b'

/-- A decoder is asked about the first character of the tree. -/
theorem exists_read {tree : Tree} {more : List (List Char)} {text : List Char}
    (spaced : Spaced (tree.words ++ more) text) :
    ∃ others, ∀ {α : Type} (decoder : Decoder α),
      decoder.read.run text = (decoder tree.head).run others := by
  obtain ⟨c, word, words, shape, visible, -, -⟩ := tree.exists_words
  have first : tree.head = c := by
    cases tree with
    | bool value => cases value <;> (cases shape; rfl)
    | number text =>
      obtain ⟨same, -⟩ := List.cons.inj shape
      rw [head, same]
      rfl
    | _ => cases shape; rfl
  rw [shape] at spaced
  obtain ⟨rest, -, met⟩ := spaced.read visible
  rw [first]
  exact ⟨_, met⟩

/-- A number begins as nothing else does. -/
theorem head_number_ne (text : NumberText) {c : Char} (other : c ≠ '-' ∧ c.isDigit = false) :
    (Tree.number text).head ≠ c := by
  obtain ⟨first, others, shape, start⟩ := text.exists_cons
  rw [head, shape]
  exact ne_of_start start other

end Tree

/-! ### Values of the wrong kind -/

/-- The report of a tree of the wrong kind. -/
def mismatched (expected : Expected) (tree : Tree) : Except ReadError α :=
  let wrong (found : Found) : Except ReadError α := .error (.wrongType found expected)
  match tree with
  | .null => wrong .null
  | .bool value => wrong (.boolean value)
  | .number text => kept text.value? >>= fun value => wrong (.number value)
  | .string text => kept text.value? >>= fun value => wrong (.string value)
  | .list _ => wrong .list
  | .object _ => wrong .object

theorem mismatched_ne_ok {expected : Expected} {tree : Tree} {value : α} :
    mismatched expected tree ≠ .ok value := by
  cases tree with
  | number text => cases known : text.value? <;> simp [mismatched, known, kept, bind, Except.bind]
  | string text => cases known : text.value? <;> simp [mismatched, known, kept, bind, Except.bind]
  | _ => exact fun same => by cases same

/-- What fails in the end gives no value. -/
theorem run_bind_fail_ne_ok {reader : Reader β} {problem : β → ReadError} {text rest : List Char}
    {value : α} :
    (reader >>= fun found => (Reader.fail (problem found) : Reader α)).run text ≠
      .ok (value, rest) := by
  intro read
  obtain ⟨found, after, -, failed⟩ := Reader.run_bind_eq_ok_iff.mp read
  cases failed

/-- A mismatch is reported and never a value. -/
theorem mismatch_run_ne_ok {expected : Expected} {head : Char} {text rest : List Char} {value : α} :
    (Decoder.mismatch expected head : Reader α).run text ≠ .ok (value, rest) := by
  unfold Decoder.mismatch
  dsimp only
  repeat' split
  all_goals first
    | exact run_bind_fail_ne_ok
    | exact fun read => by cases read

/-- A value of the wrong kind is reported as its tree says. -/
theorem reads_mismatch (expected : Expected) :
    Reads (Decoder.mismatch expected : Decoder α) (mismatched expected) where
  agrees {tree more text} closing spaced := by
    cases tree with
    | null =>
      obtain ⟨rest, behind, met⟩ := Spaced.read (c := 'n') spaced (by decide)
      rw [met, Decoder.mismatch, if_pos rfl,
        Reader.run_bind_of_ok (Reader.run_expect_append _ _)]
      exact .error _
    | bool value =>
      cases value with
      | true =>
        obtain ⟨rest, behind, met⟩ := Spaced.read (c := 't') spaced (by decide)
        rw [met, Decoder.mismatch, if_neg (by decide), if_pos rfl,
          Reader.run_bind_of_ok (Reader.run_expect_append _ _)]
        exact .error _
      | false =>
        obtain ⟨rest, behind, met⟩ := Spaced.read (c := 'f') spaced (by decide)
        rw [met, Decoder.mismatch, if_neg (by decide), if_neg (by decide), if_pos rfl,
          Reader.run_bind_of_ok (Reader.run_expect_append _ _)]
        exact .error _
    | number number =>
      obtain ⟨first, others, rest, shape, start, behind, met⟩ := Spaced.read_number spaced
      rw [met, Decoder.mismatch, if_neg (ne_of_start start (by decide)),
        if_neg (ne_of_start start (by decide)), if_neg (ne_of_start start (by decide)),
        if_pos start]
      exact .number shape (closing.stops behind) fun value => .error _
    | string string =>
      obtain ⟨rest, behind, met⟩ := Spaced.read_string spaced
      rw [met, Decoder.mismatch, if_neg (by decide), if_neg (by decide), if_neg (by decide),
        if_neg (by decide), if_pos rfl]
      refine .string fun value => ?_
      rw [String.ofList_toList]
      exact .error _
    | list items =>
      obtain ⟨rest, behind, met⟩ := Spaced.read (c := '[') spaced (by decide)
      rw [met]
      exact .error _
    | object members =>
      obtain ⟨rest, behind, met⟩ := Spaced.read (c := '\x7b') spaced (by decide)
      rw [met]
      exact .error _
  spelled read behind := by
    obtain ⟨head, others, -, mismatch⟩ := Decoder.exists_of_read read
    exact absurd mismatch mismatch_run_ne_ok

/-! ### Small decoders -/

/-- A decoder that treats a tree as another one does. -/
theorem Answers.of_same {first second : Decoder α} {meaning : Tree → Except ReadError α}
    (reads : Reads second meaning) {tree : Tree} {more : List (List Char)} {text : List Char}
    (closing : Closing more) (spaced : Spaced (tree.words ++ more) text)
    (same : first tree.head = second tree.head) :
    Answers more (meaning tree) (first.read.run text) := by
  have answers := reads.agrees closing spaced
  obtain ⟨others, met⟩ := Tree.exists_read spaced
  rw [met] at answers ⊢
  rwa [same]

/-- The truth value of a tree. -/
def booleanOf : Tree → Except ReadError Bool
  | .bool value => .ok value
  | tree => mismatched .boolean tree

theorem booleanOf_eq_ok_iff {tree : Tree} {value : Bool} :
    booleanOf tree = .ok value ↔ tree = .bool value := by
  cases tree with
  | bool found => simp [booleanOf]
  | _ => exact iff_of_false (by unfold booleanOf; exact mismatched_ne_ok) (by simp)

theorem reads_boolean : Reads Decoder.boolean booleanOf where
  agrees {tree more text} closing spaced := by
    cases tree with
    | bool value =>
      cases value with
      | true =>
        obtain ⟨rest, behind, met⟩ := Spaced.read (c := 't') spaced (by decide)
        rw [met, Decoder.boolean, if_pos rfl, Reader.run_bind_of_ok (Reader.run_expect_append _ _)]
        exact .ok behind
      | false =>
        obtain ⟨rest, behind, met⟩ := Spaced.read (c := 'f') spaced (by decide)
        rw [met, Decoder.boolean, if_neg (by decide), if_pos rfl,
          Reader.run_bind_of_ok (Reader.run_expect_append _ _)]
        exact .ok behind
    | number text =>
      refine .of_same (reads_mismatch .boolean) closing spaced ?_
      rw [Decoder.boolean, if_neg (Tree.head_number_ne text (by decide)),
        if_neg (Tree.head_number_ne text (by decide))]
    | _ => exact .of_same (reads_mismatch .boolean) closing spaced rfl
  spelled read behind := by
    obtain ⟨head, others, met, found⟩ := Decoder.exists_of_read read
    unfold Decoder.boolean at found
    split at found
    · next first =>
      exact ⟨.bool true, .of_expect (first ▸ met) found behind⟩
    · split at found
      · next first =>
        exact ⟨.bool false, .of_expect (first ▸ met) found behind⟩
      · exact absurd found mismatch_run_ne_ok

/-- The string of a tree. -/
def textOf : Tree → Except ReadError String
  | .string text => kept text.value?
  | tree => mismatched .string tree

theorem textOf_eq_ok_iff {tree : Tree} {value : String} :
    textOf tree = .ok value ↔ ∃ text, tree = .string text ∧ text.value? = some value := by
  cases tree with
  | string text => simp [textOf, kept_eq_ok_iff]
  | _ => exact iff_of_false (by unfold textOf; exact mismatched_ne_ok) (by simp)

/-- What is read as a string stands between quotation marks. -/
theorem Spaced.of_stringBody {text others found rest : List Char} {words : List (List Char)}
    (met : text.dropWhile Reader.isSpace = '"' :: others)
    (read : stringBody.run others = .ok (found, rest)) (behind : Spaced words rest) :
    ∃ string : StringText, Spaced (string.word :: words) text := by
  obtain ⟨body, rfl, isBody⟩ := isBody_of_stringBody read
  refine ⟨⟨body, isBody⟩, .of_dropWhile ?_ behind⟩
  rw [met, StringText.word, List.cons_append, List.append_assoc, List.singleton_append]

theorem reads_text : Reads Decoder.text textOf where
  agrees {tree more text} closing spaced := by
    cases tree with
    | string string =>
      obtain ⟨rest, behind, met⟩ := Spaced.read_string spaced
      rw [met, Decoder.text, if_pos rfl, textOf, ← bind_pure (kept string.value?)]
      refine .string fun value => ?_
      rw [String.ofList_toList]
      exact .ok behind
    | number number =>
      refine .of_same (reads_mismatch .string) closing spaced ?_
      rw [Decoder.text, if_neg (Tree.head_number_ne number (by decide))]
    | bool value =>
      cases value <;> exact .of_same (reads_mismatch .string) closing spaced rfl
    | _ => exact .of_same (reads_mismatch .string) closing spaced rfl
  spelled read behind := by
    obtain ⟨head, others, met, found⟩ := Decoder.exists_of_read read
    unfold Decoder.text at found
    split at found
    · next first =>
      obtain ⟨_, taken, -⟩ := Reader.run_bind_pure_eq_ok_iff.mp found
      obtain ⟨string, spaced⟩ := Spaced.of_stringBody (first ▸ met) taken behind
      exact ⟨.string string, spaced⟩
    · exact absurd found mismatch_run_ne_ok

/-! ### Decoders built from one other -/

/-- A value under a function. -/
theorem Reads.map {decoder : Decoder α} {meaning : Tree → Except ReadError α}
    (reads : Reads decoder meaning) (f : α → β) :
    Reads (decoder.map f) fun tree => (meaning tree).map f where
  agrees closing spaced := by
    obtain ⟨others, met⟩ := Tree.exists_read spaced
    have answers := reads.agrees closing spaced
    rw [met] at answers ⊢
    exact answers.map f
  spelled read behind := by
    obtain ⟨head, others, met, found⟩ := Decoder.exists_of_read read
    obtain ⟨value, taken, -⟩ := Reader.run_bind_pure_eq_ok_iff.mp found
    exact reads.spelled (Decoder.read_of_met met taken) behind

/-- The value of a tree that may be null. -/
def optionalOf (meaning : Tree → Except ReadError α) : Tree → Except ReadError (Option α)
  | .null => .ok none
  | tree => (meaning tree).map some

theorem optionalOf_eq_ok_iff {meaning : Tree → Except ReadError α} {tree : Tree}
    {value : Option α} :
    optionalOf meaning tree = .ok value ↔
      (tree = .null ∧ value = none) ∨
        (tree ≠ .null ∧ ∃ found, meaning tree = .ok found ∧ value = some found) := by
  cases tree with
  | null => simp [optionalOf, eq_comm]
  | _ =>
    unfold optionalOf
    simp only [map_eq_ok_iff, reduceCtorEq, false_and, ne_eq, not_false_eq_true, true_and,
      false_or, @eq_comm _ value]

theorem Reads.optional {decoder : Decoder α} {meaning : Tree → Except ReadError α}
    (reads : Reads decoder meaning) : Reads (Decoder.optional decoder) (optionalOf meaning) where
  agrees {tree more text} closing spaced := by
    cases tree with
    | null =>
      obtain ⟨rest, behind, met⟩ := Spaced.read (c := 'n') spaced (by decide)
      rw [met, Decoder.optional, if_pos rfl, Reader.run_bind_of_ok (Reader.run_expect_append _ _)]
      exact .ok behind
    | number number =>
      refine .of_same (reads.map some) closing spaced ?_
      rw [Decoder.optional, if_neg (Tree.head_number_ne number (by decide))]
      rfl
    | bool value =>
      cases value <;> exact .of_same (reads.map some) closing spaced rfl
    | _ => exact .of_same (reads.map some) closing spaced rfl
  spelled read behind := by
    obtain ⟨head, others, met, found⟩ := Decoder.exists_of_read read
    unfold Decoder.optional at found
    split at found
    · next first =>
      exact ⟨.null, .of_expect (first ▸ met) found behind⟩
    · obtain ⟨value, taken, -⟩ := Reader.run_bind_pure_eq_ok_iff.mp found
      exact reads.spelled (Decoder.read_of_met met taken) behind

end RenderLink.Json
