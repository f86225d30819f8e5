/-
**Members of an object.**

The members of an object are folded into a state, which says for each key how to read its value, or
that there must be no such key. On the side of trees the fold goes over the members of the tree
(`readMembers`), and the key without a value, the key that must not be and the value that cannot be
read each end it.

* `membersReader_answers`: **members are read as those of the tree.**
* `members_spelled`: what is read as members are the words of keys and trees.
-/

import RenderLink.Proofs.Json.Items

namespace RenderLink.Json

variable {σ : Type} {more words : List (List Char)} {text rest : List Char}

/-! ### The fold over the members of a tree -/

/-- What a key and the tree of its value do to a state. -/
abbrev Step (σ : Type) := σ → String → Tree → Except ReadError σ

/-- The state after the members of an object. -/
def readMembers (step : Step σ) (state : σ) : List (StringText × Tree) → Except ReadError σ
  | [] => .ok state
  | (key, value) :: members =>
    kept key.value? >>= fun name => step state name value >>= fun grown =>
      readMembers step grown members

/-- How a key is treated, and what its treatment means for the tree of its value. -/
inductive KeyReads : Except ReadError (Decoder σ) → (Tree → Except ReadError σ) → Prop
  | value {decoder : Decoder σ} {meaning : Tree → Except ReadError σ}
      (reads : Reads decoder meaning) : KeyReads (.ok decoder) meaning
  | refused {error : ReadError} {meaning : Tree → Except ReadError σ}
      (always : ∀ tree, meaning tree = .error error) : KeyReads (.error error) meaning

/-- The treatment of keys means the steps of a fold. -/
def FieldsRead (fields : Fields σ) (step : Step σ) : Prop :=
  ∀ state key, KeyReads (fields state key) (step state key)

/-! ### Keys -/

/-- The way to a member goes past the comma before it and its opening quotation mark. -/
theorem beforeMember_key {first : Bool} {key : StringText}
    (spaced : Spaced (lead first ++ (key.word :: words)) text) :
    ∃ rest, Spaced words rest ∧
      (beforeMember first).run text = .ok (true, key.chars ++ '"' :: rest) := by
  have joined : ∀ rest, '"' :: (key.chars ++ ['"'] ++ rest) = '"' :: (key.chars ++ '"' :: rest) :=
    fun rest => by rw [List.append_assoc, List.singleton_append]
  unfold beforeMember
  cases first with
  | true =>
    obtain ⟨rest, behind, met⟩ := Spaced.dropWhile (c := '"') spaced (by decide)
    refine ⟨rest, behind, ?_⟩
    rw [Reader.run_space_bind, met, joined]
    rfl
  | false =>
    obtain ⟨after, spaced, met⟩ := Spaced.dropWhile (c := ',') spaced (by decide)
    obtain ⟨rest, behind, again⟩ := Spaced.dropWhile (c := '"') spaced (by decide)
    refine ⟨rest, behind, ?_⟩
    rw [joined] at again
    rw [Reader.run_space_bind, met, Reader.run_peek?_bind, List.head?_cons]
    split
    · next absent => cases absent
    · next same => cases same
    · rw [if_neg Bool.false_ne_true, Reader.run_next_bind, Reader.run_space_bind,
        List.nil_append, again]
      rfl
    · next same => cases same
    · next differs _ same => exact (differs (Option.some.inj same).symm).elim

/-- The way to a member ends at the end of the object. -/
theorem beforeMember_end (first : Bool) (spaced : Spaced (['\x7d'] :: more) text) :
    ∃ rest, Spaced (['\x7d'] :: more) rest ∧ (beforeMember first).run text = .ok (false, rest) := by
  obtain ⟨rest, met, behind⟩ := Spaced.dropped spaced (by decide)
  refine ⟨'\x7d' :: rest, behind, ?_⟩
  rw [beforeMember, Reader.run_space_bind, met]
  rfl

/-- Where there is a member, its key stands behind its comma. -/
theorem Spaced.of_beforeMember {first : Bool} {others found : List Char}
    (reached : (beforeMember first).run text = .ok (true, others))
    (read : stringBody.run others = .ok (found, rest)) (behind : Spaced words rest) :
    ∃ key : StringText, Spaced (lead first ++ (key.word :: words)) text := by
  rw [beforeMember, Reader.run_space_bind, Reader.run_peek?_bind] at reached
  split at reached
  · cases reached
  · cases reached
  · next comma =>
    cases first with
    | true => cases reached
    | false =>
      obtain ⟨after, met⟩ := List.head?_eq_some_iff.mp comma
      rw [if_neg Bool.false_ne_true, met, Reader.run_next_bind, Reader.run_space_bind] at reached
      obtain ⟨_, last, taken, ended⟩ := Reader.run_bind_eq_ok_iff.mp reached
      cases ended
      obtain ⟨key, spaced⟩ := Spaced.of_stringBody (Reader.eq_of_expect taken) read behind
      exact ⟨key, .of_dropWhile (show _ = [','] ++ _ from met) spaced⟩
  · next quotation =>
    cases first with
    | true =>
      obtain ⟨after, met⟩ := List.head?_eq_some_iff.mp quotation
      rw [if_pos rfl, met, Reader.run_next_bind] at reached
      cases reached
      exact Spaced.of_stringBody met read behind
    | false => cases reached
  · cases reached

/-- Where there is no member, the object ends. -/
theorem end_of_beforeMember {first : Bool}
    (reached : (beforeMember first).run text = .ok (false, rest)) :
    text.dropWhile Reader.isSpace = rest := by
  rw [beforeMember, Reader.run_space_bind, Reader.run_peek?_bind] at reached
  split at reached
  · cases reached
  · cases reached; rfl
  · cases first with
    | true => cases reached
    | false =>
      rw [if_neg Bool.false_ne_true] at reached
      obtain ⟨_, _, -, reached⟩ := Reader.run_bind_eq_ok_iff.mp reached
      rw [Reader.run_space_bind] at reached
      obtain ⟨_, _, -, ended⟩ := Reader.run_bind_eq_ok_iff.mp reached
      cases ended
  · cases first with
    | true =>
      rw [if_pos rfl] at reached
      obtain ⟨_, _, -, ended⟩ := Reader.run_bind_eq_ok_iff.mp reached
      cases ended
    | false => cases reached
  · cases reached

/-! ### Members -/

/-- An object is met at its opening brace. -/
theorem Spaced.read_object {members : List (StringText × Tree)}
    (spaced : Spaced ((Tree.object members).words ++ more) text) :
    ∃ rest, Spaced (memberWords true members ++ ['\x7d'] :: more) rest ∧
      ∀ {α : Type} (decoder : Decoder α), decoder.read.run text = (decoder '\x7b').run rest := by
  obtain ⟨rest, behind, met⟩ := Spaced.read (c := '\x7b') spaced (by decide)
  refine ⟨rest, ?_, met⟩
  rwa [← List.singleton_append, ← List.append_assoc]

/-- An object stands where its opening brace was met. -/
theorem Spaced.of_object {members : List (StringText × Tree)} {others : List Char}
    (met : text.dropWhile Reader.isSpace = '\x7b' :: others)
    (behind : Spaced (memberWords true members ++ ['\x7d'] :: more) others) :
    Spaced ((Tree.object members).words ++ more) text := by
  refine .of_dropWhile (show _ = ['\x7b'] ++ _ from met) ?_
  rwa [← List.singleton_append, ← List.append_assoc] at behind

/-- The members of an object up to its closing brace, read into a state. -/
def membersReader (fields : Fields σ) (state : σ) (first : Bool) : Reader σ where
  run := membersFrom fields state first
  notLonger := membersFrom_notLonger fields

/-- Members are read one after another. -/
theorem membersReader_run (fields : Fields σ) (state : σ) (first : Bool) (text : List Char) :
    (membersReader fields state first).run text =
      (do
        if ← beforeMember first then
          let key ← stringBody
          let grown ← member fields state key
          membersReader fields grown false
        else pure state).run text := by
  show membersFrom fields state first text = _
  rw [Reader.run_bind]
  unfold membersFrom
  split
  · next failed => rw [failed]
  · next ended => rw [ended]; rfl
  · next between reached =>
    rw [reached]
    dsimp only
    rw [if_pos rfl, Reader.run_bind]
    split
    · next failed => rw [failed]
    · next key after read =>
      rw [read]
      dsimp only
      rw [Reader.run_bind]
      split
      · next failed => rw [failed]
      · next grown last valued => rw [valued]; rfl

/-- A member is read behind its key as its tree. -/
theorem member_answers {fields : Fields σ} {step : Step σ} (reads : FieldsRead fields step)
    (state : σ) (name : String) {value : Tree} (closing : Closing more)
    (spaced : Spaced ([':'] :: (value.words ++ more)) text) :
    Answers more (step state name value) ((member fields state name.toList).run text) := by
  have treated := reads state name
  rw [member, String.ofList_toList]
  generalize fields state name = treatment at treated
  cases treated with
  | value valueReads =>
    obtain ⟨rest, behind, taken⟩ := run_mark spaced (by decide)
    have coloned : colon.run text = .ok ((), rest) := taken
    show Answers more _ ((colon >>= fun _ => Decoder.read _).run text)
    rw [Reader.run_bind_of_ok coloned]
    exact valueReads.agrees closing behind
  | refused always =>
    rw [always]
    exact .error _

/-- **Members are read as those of the tree.** -/
theorem membersReader_answers {fields : Fields σ} {step : Step σ} (reads : FieldsRead fields step)
    (state : σ) {first : Bool} {members : List (StringText × Tree)}
    (spaced : Spaced (memberWords first members ++ ['\x7d'] :: more) text) :
    Answers (['\x7d'] :: more) (readMembers step state members)
      ((membersReader fields state first).run text) := by
  rw [membersReader_run]
  induction members generalizing state first text with
  | nil =>
    obtain ⟨rest, behind, ended⟩ := beforeMember_end first spaced
    rw [Reader.run_bind_of_ok ended]
    exact .ok behind
  | cons member members ih =>
    obtain ⟨key, value⟩ := member
    rw [memberWords, List.append_assoc, List.cons_append, List.cons_append,
      List.append_assoc] at spaced
    obtain ⟨rest, behind, reached⟩ := beforeMember_key spaced
    rw [Reader.run_bind_of_ok reached]
    refine .string fun name => ?_
    refine Answers.bind (member_answers reads state name (closing_members members more) behind)
      fun _ behind => ?_
    rw [membersReader_run]
    exact ih _ behind

/-- What is read behind a key is a colon and a tree. -/
theorem member_spelled {fields : Fields σ} {step : Step σ} (reads : FieldsRead fields step)
    {state grown : σ} {key : List Char}
    (read : (member fields state key).run text = .ok (grown, rest)) (behind : Spaced words rest) :
    ∃ value : Tree, Spaced ([':'] :: (value.words ++ words)) text := by
  have treated := reads state (String.ofList key)
  unfold member at read
  generalize fields state (String.ofList key) = treatment at treated read
  cases treated with
  | value valueReads =>
    change (colon >>= fun _ => Decoder.read _).run text = _ at read
    obtain ⟨_, after, coloned, valued⟩ := Reader.run_bind_eq_ok_iff.mp read
    obtain ⟨value, spaced⟩ := valueReads.spelled valued behind
    exact ⟨value, .of_mark coloned spaced⟩
  | refused always => cases read

/-- What is read as members are the words of keys and trees. -/
theorem members_spelled {fields : Fields σ} {step : Step σ} (reads : FieldsRead fields step)
    {state final : σ} (first : Bool)
    (read : (membersReader fields state first).run text = .ok (final, rest))
    (behind : Spaced words rest) :
    ∃ members : List (StringText × Tree), Spaced (memberWords first members ++ words) text := by
  change membersFrom fields state first text = _ at read
  fun_induction membersFrom fields state first text with
  | case1 => cases read
  | case2 state first text between reached =>
    cases read
    obtain rfl := end_of_beforeMember reached
    exact ⟨[], .of_dropped behind⟩
  | case3 => cases read
  | case4 => cases read
  | case5 state first text start reached key between named grown after valued ih =>
    obtain ⟨members, spaced⟩ := ih read
    obtain ⟨value, spaced⟩ := member_spelled reads valued spaced
    obtain ⟨key, spaced⟩ := Spaced.of_beforeMember reached named spaced
    refine ⟨(key, value) :: members, ?_⟩
    rw [memberWords, List.append_assoc, List.cons_append, List.cons_append, List.append_assoc]
    exact spaced

end RenderLink.Json
