/-
**Values that are passed over.**

Passing over keeps the open brackets in a stack. With brackets open, what may come next has to be
completed by words: the rest of a value, and then the rest of each bracket, the innermost first
(`Awaited.Completes`). The words of a tree complete a value that is awaited, and nothing but such
words is passed over. So every tree is passed over, whatever its numbers and strings are worth and
however deep it nests.

* `skipFrom_tree`: the text of a tree is passed over.
* `completes_of_skipFrom`: what is passed over completes what was awaited.
* `reads_skipValue`: **a value that is passed over is a tree, and every tree is passed over.**
-/

import RenderLink.Proofs.Json.Members

namespace RenderLink.Json

variable {more words : List (List Char)} {text rest : List Char}

/-! ### One token -/

/-- What comes next in an open bracket, once its end does not: an item, or a member. -/
def Bracket.within : Bracket → List Bracket → Awaited
  | .list, outer => .value (.list :: outer)
  | .object, outer => .key outer

theorem Awaited.skip_opened_closing (bracket : Bracket) (outer : List Bracket) :
    (Awaited.opened bracket outer).skip bracket.closing = pure (.after outer) :=
  if_pos rfl

theorem Awaited.skip_opened {bracket : Bracket} {outer : List Bracket} {head : Char}
    (notEnd : head ≠ bracket.closing) :
    (Awaited.opened bracket outer).skip head = (bracket.within outer).skip head := by
  cases bracket <;> exact if_neg notEnd

theorem Awaited.skip_after_comma (bracket : Bracket) (outer : List Bracket) :
    (Awaited.after (bracket :: outer)).skip ',' = pure (bracket.within outer) := by
  cases bracket <;> rfl

theorem Awaited.skip_after_closing (bracket : Bracket) (outer : List Bracket) :
    (Awaited.after (bracket :: outer)).skip bracket.closing = pure (.after outer) := by
  cases bracket <;> rfl

theorem Awaited.skip_after_other {bracket : Bracket} {outer : List Bracket} {head : Char}
    (notComma : head ≠ ',') (notEnd : head ≠ bracket.closing) :
    (Awaited.after (bracket :: outer)).skip head = Reader.fail .notJson := by
  cases bracket <;> exact (if_neg notComma).trans (if_neg notEnd)

/-! ### Trees are passed over -/

/-- A token that is passed over leaves the rest to what may come next. -/
theorem skipFrom_of_skip {awaited next : Awaited} (unfinished : awaited ≠ .after [])
    (passed : awaited.skip.read.run text = .ok (next, rest)) :
    skipFrom awaited text = skipFrom next rest := by
  rw [skipFrom, if_neg unfinished]
  split
  · next failed =>
    rw [passed] at failed
    cases failed
  · next found =>
    rw [passed] at found
    cases found
    rfl

/-- A token that is not passed over ends the reading. -/
theorem skipFrom_of_error {awaited : Awaited} {error : ReadError} (unfinished : awaited ≠ .after [])
    (failed : awaited.skip.read.run text = .error error) :
    skipFrom awaited text = .error error := by
  rw [skipFrom, if_neg unfinished]
  split
  · next found =>
    rw [failed] at found
    cases found
    rfl
  · next passed =>
    rw [failed] at passed
    cases passed

/-- What may come next matters only for the next character. -/
theorem skipFrom_congr {first second : Awaited} (unfinished : first ≠ .after [])
    (alsoUnfinished : second ≠ .after [])
    (same : first.skip.read.run text = second.skip.read.run text) :
    skipFrom first text = skipFrom second text := by
  rw [skipFrom, if_neg unfinished, skipFrom, if_neg alsoUnfinished, same]

/-- A key and its colon are passed over. -/
theorem skipKey_run {key : StringText} (outer : List Bracket)
    (spaced : Spaced (key.word :: [':'] :: words) text) :
    ∃ rest, Spaced words rest ∧
      (skipKey outer).read.run text = .ok (.value (.object :: outer), rest) := by
  obtain ⟨between, spaced, met⟩ := Spaced.read_string spaced
  obtain ⟨rest, behind, taken⟩ := run_mark spaced (by decide)
  have coloned : colon.run between = .ok ((), rest) := taken
  refine ⟨rest, behind, ?_⟩
  rw [met, skipKey, if_pos rfl, Reader.run_bind_of_ok (skipString_run key.isBody between),
    Reader.run_bind_of_ok coloned]
  rfl

mutual

/-- **The text of a tree is passed over.** -/
theorem skipFrom_tree (brackets : List Bracket) (tree : Tree) {more : List (List Char)}
    {text : List Char} (closing : Closing more) (spaced : Spaced (tree.words ++ more) text) :
    ∃ rest, Spaced more rest ∧
      skipFrom (.value brackets) text = skipFrom (.after brackets) rest := by
  match tree with
  | .null =>
    obtain ⟨rest, behind, met⟩ := Spaced.read (c := 'n') spaced (by decide)
    refine ⟨rest, behind, skipFrom_of_skip (by simp) ?_⟩
    rw [met, Awaited.skip, skipHead, if_pos rfl,
      Reader.run_bind_of_ok (Reader.run_expect_append _ _)]
    rfl
  | .bool true =>
    obtain ⟨rest, behind, met⟩ := Spaced.read (c := 't') spaced (by decide)
    refine ⟨rest, behind, skipFrom_of_skip (by simp) ?_⟩
    rw [met, Awaited.skip, skipHead, if_neg (by decide), if_pos rfl,
      Reader.run_bind_of_ok (Reader.run_expect_append _ _)]
    rfl
  | .bool false =>
    obtain ⟨rest, behind, met⟩ := Spaced.read (c := 'f') spaced (by decide)
    refine ⟨rest, behind, skipFrom_of_skip (by simp) ?_⟩
    rw [met, Awaited.skip, skipHead, if_neg (by decide), if_neg (by decide), if_pos rfl,
      Reader.run_bind_of_ok (Reader.run_expect_append _ _)]
    rfl
  | .number written =>
    obtain ⟨first, others, rest, shape, start, behind, met⟩ := Spaced.read_number spaced
    refine ⟨rest, behind, skipFrom_of_skip (by simp) ?_⟩
    rw [met, Awaited.skip, skipHead, if_neg (ne_of_start start (by decide)),
      if_neg (ne_of_start start (by decide)), if_neg (ne_of_start start (by decide)),
      if_pos start, Reader.run_bind_of_ok (written.skipNumber_run shape (closing.stops behind))]
    rfl
  | .string quoted =>
    obtain ⟨rest, behind, met⟩ := Spaced.read_string spaced
    refine ⟨rest, behind, skipFrom_of_skip (by simp) ?_⟩
    rw [met, Awaited.skip, skipHead, if_neg (by decide), if_neg (by decide), if_neg (by decide),
      if_neg (by decide), if_pos rfl, Reader.run_bind_of_ok (skipString_run quoted.isBody rest)]
    rfl
  | .list items =>
    obtain ⟨between, spaced, met⟩ := Spaced.read_list spaced
    obtain ⟨rest, behind, passed⟩ := skipFrom_opened brackets items spaced
    refine ⟨rest, behind, .trans (skipFrom_of_skip (by simp) ?_) passed⟩
    rw [met]
    rfl
  | .object members =>
    obtain ⟨between, spaced, met⟩ := Spaced.read_object spaced
    obtain ⟨rest, behind, passed⟩ := skipFrom_openedObject brackets members spaced
    refine ⟨rest, behind, .trans (skipFrom_of_skip (by simp) ?_) passed⟩
    rw [met]
    rfl
termination_by structural tree

/-- The items of a list are passed over, with its end. -/
theorem skipFrom_opened (outer : List Bracket) (items : List Tree) {more : List (List Char)}
    {text : List Char} (spaced : Spaced (itemWords true items ++ [']'] :: more) text) :
    ∃ rest, Spaced more rest ∧
      skipFrom (.opened .list outer) text = skipFrom (.after outer) rest := by
  match items with
  | [] =>
    obtain ⟨rest, behind, met⟩ := Spaced.read (c := ']') spaced (by decide)
    refine ⟨rest, behind, skipFrom_of_skip (by simp) ?_⟩
    rw [met]
    rfl
  | item :: items =>
    rw [itemWords, List.append_assoc, List.append_assoc] at spaced
    obtain ⟨between, after, passed⟩ :=
      skipFrom_tree (.list :: outer) item (closing_items items more) spaced
    obtain ⟨rest, behind, others⟩ := skipFrom_items outer items after
    obtain ⟨c, word, words, shape, visible, -, notEnd⟩ := item.exists_words
    rw [shape] at spaced
    obtain ⟨last, -, met⟩ := Spaced.read spaced visible
    refine ⟨rest, behind, .trans (skipFrom_congr (by simp) (by simp) ?_) (passed.trans others)⟩
    rw [met, met, Awaited.skip_opened notEnd]
    rfl
termination_by structural items

/-- Further items of a list are passed over, with its end. -/
theorem skipFrom_items (outer : List Bracket) (items : List Tree) {more : List (List Char)}
    {text : List Char} (spaced : Spaced (itemWords false items ++ [']'] :: more) text) :
    ∃ rest, Spaced more rest ∧
      skipFrom (.after (.list :: outer)) text = skipFrom (.after outer) rest := by
  match items with
  | [] =>
    obtain ⟨rest, behind, met⟩ := Spaced.read (c := ']') spaced (by decide)
    refine ⟨rest, behind, skipFrom_of_skip (by simp) ?_⟩
    rw [met]
    rfl
  | item :: items =>
    rw [itemWords, List.append_assoc, List.append_assoc] at spaced
    obtain ⟨start, spaced, met⟩ := Spaced.read (c := ',') spaced (by decide)
    obtain ⟨between, after, passed⟩ :=
      skipFrom_tree (.list :: outer) item (closing_items items more) spaced
    obtain ⟨rest, behind, others⟩ := skipFrom_items outer items after
    refine ⟨rest, behind, .trans (skipFrom_of_skip (by simp) ?_) (passed.trans others)⟩
    rw [met]
    rfl
termination_by structural items

/-- The members of an object are passed over, with its end. -/
theorem skipFrom_openedObject (outer : List Bracket) (members : List (StringText × Tree))
    {more : List (List Char)} {text : List Char}
    (spaced : Spaced (memberWords true members ++ ['\x7d'] :: more) text) :
    ∃ rest, Spaced more rest ∧
      skipFrom (.opened .object outer) text = skipFrom (.after outer) rest := by
  match members with
  | [] =>
    obtain ⟨rest, behind, met⟩ := Spaced.read (c := '\x7d') spaced (by decide)
    refine ⟨rest, behind, skipFrom_of_skip (by simp) ?_⟩
    rw [met]
    rfl
  | (key, value) :: members =>
    rw [memberWords, List.append_assoc, List.cons_append, List.cons_append,
      List.append_assoc] at spaced
    obtain ⟨start, keyed, met⟩ := skipKey_run outer spaced
    obtain ⟨between, after, passed⟩ :=
      skipFrom_tree (.object :: outer) value (closing_members members more) keyed
    obtain ⟨rest, behind, others⟩ := skipFrom_members outer members after
    refine ⟨rest, behind, .trans (skipFrom_of_skip (by simp) ?_) (passed.trans others)⟩
    obtain ⟨last, -, opened⟩ := Spaced.read_string spaced
    rw [opened] at met ⊢
    exact met
termination_by structural members

/-- Further members of an object are passed over, with its end. -/
theorem skipFrom_members (outer : List Bracket) (members : List (StringText × Tree))
    {more : List (List Char)} {text : List Char}
    (spaced : Spaced (memberWords false members ++ ['\x7d'] :: more) text) :
    ∃ rest, Spaced more rest ∧
      skipFrom (.after (.object :: outer)) text = skipFrom (.after outer) rest := by
  match members with
  | [] =>
    obtain ⟨rest, behind, met⟩ := Spaced.read (c := '\x7d') spaced (by decide)
    refine ⟨rest, behind, skipFrom_of_skip (by simp) ?_⟩
    rw [met]
    rfl
  | (key, value) :: members =>
    rw [memberWords, List.append_assoc, List.cons_append, List.cons_append,
      List.append_assoc] at spaced
    obtain ⟨comma, spaced, met⟩ := Spaced.read (c := ',') spaced (by decide)
    obtain ⟨start, keyed, named⟩ := skipKey_run outer spaced
    obtain ⟨between, after, passed⟩ :=
      skipFrom_tree (.object :: outer) value (closing_members members more) keyed
    obtain ⟨rest, behind, others⟩ := skipFrom_members outer members after
    have keyPassed : skipFrom (.key outer) comma = skipFrom (.value (.object :: outer)) start :=
      skipFrom_of_skip (by simp) named
    refine ⟨rest, behind, .trans (skipFrom_of_skip (by simp) ?_)
      (keyPassed.trans (passed.trans others))⟩
    rw [met]
    rfl
termination_by structural members

end

/-! ### What is passed over is a tree -/

/-- The words close the open brackets. -/
def Closes : List Bracket → List (List Char) → Prop
  | [], words => words = []
  | .list :: outer, words =>
    ∃ items others, words = itemWords false items ++ [']'] :: others ∧ Closes outer others
  | .object :: outer, words =>
    ∃ members others, words = memberWords false members ++ ['\x7d'] :: others ∧ Closes outer others

/-- The words complete what may come next. -/
def Awaited.Completes : Awaited → List (List Char) → Prop
  | .value brackets, words =>
    ∃ (tree : Tree) (others : _), words = tree.words ++ others ∧ Closes brackets others
  | .opened .list outer, words =>
    ∃ items others, words = itemWords true items ++ [']'] :: others ∧ Closes outer others
  | .opened .object outer, words =>
    ∃ members others, words = memberWords true members ++ ['\x7d'] :: others ∧ Closes outer others
  | .key outer, words =>
    ∃ (key : StringText) (value : Tree) (others : _),
      words = key.word :: [':'] :: (value.words ++ others) ∧ Closes (.object :: outer) others
  | .after brackets, words => Closes brackets words

/-- A tree completes a value, and what stands behind it closes the brackets. -/
theorem completes_value {brackets : List Bracket} (tree : Tree) {others : List (List Char)}
    (closes : Closes brackets others) (spaced : Spaced (tree.words ++ (others ++ more)) text) :
    ∃ earlier, (Awaited.value brackets).Completes earlier ∧ Spaced (earlier ++ more) text :=
  ⟨tree.words ++ others, ⟨tree, others, rfl, closes⟩, by rwa [List.append_assoc]⟩

/-- What is passed over as a string, behind its quotation mark, is the text of one. -/
theorem Spaced.of_skipString {others : List Char} {value : Unit}
    (met : text.dropWhile Reader.isSpace = '"' :: others)
    (passed : skipString.run others = .ok (value, rest)) (spaced : Spaced words rest) :
    ∃ string : StringText, Spaced (string.word :: words) text := by
  obtain ⟨body, rfl, isBody⟩ := isBody_of_skipString passed
  refine ⟨⟨body, isBody⟩, .of_dropWhile ?_ spaced⟩
  rw [met, StringText.word, List.cons_append, List.append_assoc, List.singleton_append]

/-- What is passed over as a value, or as its opening bracket, begins a value. -/
theorem completes_of_skipHead {brackets : List Bracket} {next : Awaited} {head : Char}
    {others : List Char} (met : text.dropWhile Reader.isSpace = head :: others)
    (passed : (skipHead brackets head).run others = .ok (next, rest))
    (completes : next.Completes words) (spaced : Spaced (words ++ more) rest) :
    ∃ earlier, (Awaited.value brackets).Completes earlier ∧ Spaced (earlier ++ more) text := by
  unfold skipHead at passed
  -- A value of one word leaves its brackets to be closed.
  split at passed
  · next first =>
    obtain ⟨_, -, rfl⟩ := Reader.run_bind_pure_eq_ok_iff.mp passed
    exact completes_value .null completes (.of_expect (first ▸ met) passed spaced)
  split at passed
  · next first =>
    obtain ⟨_, -, rfl⟩ := Reader.run_bind_pure_eq_ok_iff.mp passed
    exact completes_value (.bool true) completes (.of_expect (first ▸ met) passed spaced)
  split at passed
  · next first =>
    obtain ⟨_, -, rfl⟩ := Reader.run_bind_pure_eq_ok_iff.mp passed
    exact completes_value (.bool false) completes (.of_expect (first ▸ met) passed spaced)
  split at passed
  · obtain ⟨_, taken, rfl⟩ := Reader.run_bind_pure_eq_ok_iff.mp passed
    obtain ⟨digits, rfl, isNumber⟩ := isNumber_of_skipNumber taken
    exact completes_value (.number ⟨_, isNumber⟩) completes (.of_dropWhile met spaced)
  split at passed
  · next first =>
    obtain ⟨_, taken, rfl⟩ := Reader.run_bind_pure_eq_ok_iff.mp passed
    obtain ⟨string, spaced⟩ := Spaced.of_skipString (first ▸ met) taken spaced
    exact completes_value (.string string) completes spaced
  -- An opening bracket has its contents completed with it.
  split at passed
  · next first =>
    obtain ⟨rfl, rfl⟩ := Reader.run_pure_eq_ok_iff.mp passed
    obtain ⟨items, behind, rfl, closes⟩ := completes
    rw [List.append_assoc, List.cons_append] at spaced
    exact completes_value (.list items) closes (.of_list (first ▸ met) spaced)
  split at passed
  · next first =>
    obtain ⟨rfl, rfl⟩ := Reader.run_pure_eq_ok_iff.mp passed
    obtain ⟨members, behind, rfl, closes⟩ := completes
    rw [List.append_assoc, List.cons_append] at spaced
    exact completes_value (.object members) closes (.of_object (first ▸ met) spaced)
  cases passed

/-- What is passed over as a key and its colon begins a member. -/
theorem completes_of_skipKey {outer : List Bracket} {next : Awaited} {head : Char}
    {others : List Char} (met : text.dropWhile Reader.isSpace = head :: others)
    (passed : (skipKey outer head).run others = .ok (next, rest))
    (completes : next.Completes words) (spaced : Spaced (words ++ more) rest) :
    ∃ earlier, (Awaited.key outer).Completes earlier ∧ Spaced (earlier ++ more) text := by
  unfold skipKey at passed
  split at passed
  · next first =>
    obtain ⟨_, after, taken, continued⟩ := Reader.run_bind_eq_ok_iff.mp passed
    obtain ⟨_, coloned, rfl⟩ := Reader.run_bind_pure_eq_ok_iff.mp continued
    obtain ⟨value, behind, rfl, closes⟩ := completes
    have behindKey : Spaced ([':'] :: (value.words ++ behind ++ more)) after :=
      .of_mark coloned spaced
    obtain ⟨key, spaced⟩ := Spaced.of_skipString (first ▸ met) taken behindKey
    exact ⟨key.word :: [':'] :: (value.words ++ behind), ⟨key, value, behind, rfl, closes⟩, spaced⟩
  · cases passed

/-- The first item or member of a bracket begins its contents. -/
theorem Bracket.completes_opened {bracket : Bracket} {outer : List Bracket}
    (completes : (bracket.within outer).Completes words) :
    (Awaited.opened bracket outer).Completes words := by
  cases bracket with
  | list =>
    obtain ⟨item, behind, rfl, items, after, rfl, closes⟩ := completes
    exact ⟨item :: items, after, by simp [itemWords], closes⟩
  | object =>
    obtain ⟨key, value, behind, rfl, members, after, rfl, closes⟩ := completes
    exact ⟨(key, value) :: members, after, by simp [memberWords], closes⟩

/-- A comma and a further item or member go on with the contents. -/
theorem Bracket.closes_comma {bracket : Bracket} {outer : List Bracket}
    (completes : (bracket.within outer).Completes words) :
    Closes (bracket :: outer) ([','] :: words) := by
  cases bracket with
  | list =>
    obtain ⟨item, behind, rfl, items, after, rfl, closes⟩ := completes
    exact ⟨item :: items, after, by simp [itemWords], closes⟩
  | object =>
    obtain ⟨key, value, behind, rfl, members, after, rfl, closes⟩ := completes
    exact ⟨(key, value) :: members, after, by simp [memberWords], closes⟩

/-- The end of a bracket closes it, with contents before it or without. -/
theorem Bracket.closes_closing (bracket : Bracket) {outer : List Bracket}
    (closes : Closes outer words) :
    Closes (bracket :: outer) ([bracket.closing] :: words) ∧
      (Awaited.opened bracket outer).Completes ([bracket.closing] :: words) := by
  cases bracket <;> exact ⟨⟨[], words, rfl, closes⟩, [], words, rfl, closes⟩

/-- What is passed over behind an opening bracket begins its contents, or is its end. -/
theorem completes_of_skipOpened {bracket : Bracket} {outer : List Bracket} {next : Awaited}
    {head : Char} {others : List Char} (met : text.dropWhile Reader.isSpace = head :: others)
    (passed : ((Awaited.opened bracket outer).skip head).run others = .ok (next, rest))
    (completes : next.Completes words) (spaced : Spaced (words ++ more) rest) :
    ∃ earlier, (Awaited.opened bracket outer).Completes earlier ∧
      Spaced (earlier ++ more) text := by
  by_cases last : head = bracket.closing
  · subst last
    rw [Awaited.skip_opened_closing] at passed
    obtain ⟨rfl, rfl⟩ := Reader.run_pure_eq_ok_iff.mp passed
    exact ⟨[bracket.closing] :: words, (bracket.closes_closing completes).2,
      .of_dropWhile (show _ = [bracket.closing] ++ _ from met) spaced⟩
  · rw [Awaited.skip_opened last] at passed
    have first : ∃ earlier, (bracket.within outer).Completes earlier ∧
        Spaced (earlier ++ more) text := by
      cases bracket with
      | list => exact completes_of_skipHead met passed completes spaced
      | object => exact completes_of_skipKey met passed completes spaced
    obtain ⟨earlier, begun, spaced⟩ := first
    exact ⟨earlier, Bracket.completes_opened begun, spaced⟩

/-- What is passed over behind an item or a member is a comma, or the end of the bracket. -/
theorem completes_of_skipAfter {bracket : Bracket} {outer : List Bracket} {next : Awaited}
    {head : Char} {others : List Char} (met : text.dropWhile Reader.isSpace = head :: others)
    (passed : ((Awaited.after (bracket :: outer)).skip head).run others = .ok (next, rest))
    (completes : next.Completes words) (spaced : Spaced (words ++ more) rest) :
    ∃ earlier, Closes (bracket :: outer) earlier ∧ Spaced (earlier ++ more) text := by
  by_cases comma : head = ','
  · subst comma
    rw [Awaited.skip_after_comma] at passed
    obtain ⟨rfl, rfl⟩ := Reader.run_pure_eq_ok_iff.mp passed
    exact ⟨[','] :: words, Bracket.closes_comma completes,
      .of_dropWhile (show _ = [','] ++ _ from met) spaced⟩
  by_cases last : head = bracket.closing
  · subst last
    rw [Awaited.skip_after_closing] at passed
    obtain ⟨rfl, rfl⟩ := Reader.run_pure_eq_ok_iff.mp passed
    exact ⟨[bracket.closing] :: words, (bracket.closes_closing completes).1,
      .of_dropWhile (show _ = [bracket.closing] ++ _ from met) spaced⟩
  · rw [Awaited.skip_after_other comma last] at passed
    cases passed

/-- One token that is passed over begins what was awaited. -/
theorem completes_of_skip {awaited next : Awaited}
    (passed : awaited.skip.read.run text = .ok (next, rest)) (completes : next.Completes words)
    (spaced : Spaced (words ++ more) rest) :
    ∃ earlier, awaited.Completes earlier ∧ Spaced (earlier ++ more) text := by
  obtain ⟨head, others, met, token⟩ := Decoder.exists_of_read passed
  match awaited with
  | .value brackets => exact completes_of_skipHead met token completes spaced
  | .key outer => exact completes_of_skipKey met token completes spaced
  | .opened bracket outer => exact completes_of_skipOpened met token completes spaced
  | .after [] => cases token
  | .after (bracket :: outer) => exact completes_of_skipAfter met token completes spaced

/-- **What is passed over completes what was awaited.** -/
theorem completes_of_skipFrom {awaited : Awaited} {value : Unit}
    (passed : skipFrom awaited text = .ok (value, rest)) (spaced : Spaced more rest) :
    ∃ words, awaited.Completes words ∧ Spaced (words ++ more) text := by
  fun_induction skipFrom awaited text with
  | case1 text =>
    cases passed
    exact ⟨[], rfl, spaced⟩
  | case2 => cases passed
  | case3 awaited text unfinished next after token ih =>
    obtain ⟨words, completes, behind⟩ := ih passed
    exact completes_of_skip token completes behind

/-- Passing over a value is passing over what is awaited at its beginning. -/
theorem skipValue_run (text : List Char) :
    skipValue.read.run text = skipFrom (.value []) text := by
  have steps : skipValue.read = (Awaited.value []).skip.read >>= Awaited.skipRest := by
    rw [Decoder.read, Decoder.read, Reader.bind_assoc]
    congr 1
    funext _
    rw [Reader.bind_assoc]
    rfl
  rw [steps]
  cases passed : (Awaited.value []).skip.read.run text with
  | error error =>
    rw [Reader.run_bind_of_error passed]
    exact (skipFrom_of_error (by simp) passed).symm
  | ok reached =>
    rw [Reader.run_bind_of_ok passed]
    exact (skipFrom_of_skip (by simp) passed).symm

/-- **A value that is passed over is a tree, and every tree is passed over.** -/
theorem reads_skipValue : Reads skipValue fun _ => .ok () where
  agrees {tree more text} closing spaced := by
    obtain ⟨rest, behind, passed⟩ := skipFrom_tree [] tree closing spaced
    rw [skipValue_run, passed, skipFrom, if_pos rfl]
    exact .ok behind
  spelled {more text rest value} read behind := by
    rw [skipValue_run] at read
    obtain ⟨words, ⟨tree, others, rfl, ended⟩, spaced⟩ := completes_of_skipFrom read behind
    obtain rfl : others = [] := ended
    rw [List.append_nil] at spaced
    exact ⟨tree, spaced⟩

end RenderLink.Json
