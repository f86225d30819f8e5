/-
**The search on bytes.**

The first byte of a callee does not go on with a character, so the callee is found on bytes where it
is found on characters. A search on bytes that has come as far as a search on characters (`Follows`)
finds the same call site next, and has come as far again.

* `offsetOf?_encode`: **a word is found at the same place** on bytes and on characters.
* `searchFrom_encode`: what is found from a place on, and where that ends.
* `Follows.next`, `Follows.results`: one search, and any number of them in turn.
* `byteCall?_accepts_grammar`: **what is read as a call is the grammar of calls**, and no cut is
  refused.
-/

import RenderLink.Proofs.Hoist.ByteCalls

namespace RenderLink

open Text

/-! ### Words on bytes -/

/-- A word does not begin inside of a character. -/
theorem offsetOf?_continued {first : UInt8} {word others rest : List UInt8}
    (begins : isContinuation first = false)
    (continued : ∀ byte ∈ others, isContinuation byte = true) :
    offsetOf? (first :: word) (others ++ rest) =
      (offsetOf? (first :: word) rest).map (· + others.length) := by
  induction others with
  | nil => simp
  | cons byte others ih =>
    obtain ⟨here, later⟩ := List.forall_mem_cons.1 continued
    have other : first ≠ byte := by
      rintro rfl
      rw [begins] at here
      cases here
    have apart : (first :: word).isPrefixOf (byte :: (others ++ rest)) = false := by
      simp [List.isPrefixOf, other]
    rw [List.cons_append, offsetOf?, apart, ih later, Option.map_map]
    simp [Function.comp_def, Nat.add_assoc]

/-- **A word is found at the same place on bytes and on characters.** -/
theorem offsetOf?_encode {word : List Char} (nonempty : word ≠ []) (text : List Char) :
    offsetOf? (encode word) (encode text) =
      (splitAtWord word text).map fun parts => byteLength parts.1 := by
  obtain ⟨c, word, rfl⟩ := List.exists_cons_of_ne_nil nonempty
  obtain ⟨byte, further, bytes, begins, -⟩ := utf8EncodeChar_shape c
  have spelled : encode (c :: word) = byte :: (further ++ encode word) := by simp [bytes]
  induction text with
  | nil => simp [spelled, offsetOf?, splitAtWord]
  | cons d text ih =>
    obtain ⟨first, others, bytes', -, continued⟩ := utf8EncodeChar_shape d
    have spelled' : encode (d :: text) = first :: (others ++ encode text) := by simp [bytes']
    have size : others.length + 1 = d.utf8Size := by
      rw [← String.length_utf8EncodeChar, bytes', List.length_cons]
    have here : (encode (c :: word)).isPrefixOf (first :: (others ++ encode text)) = true ↔
        (afterWord? (c :: word) (d :: text)).isSome = true := by
      rw [List.isPrefixOf_iff_prefix, ← spelled', encode_isPrefix_iff, Option.isSome_iff_exists]
      simp only [afterWord?_eq_some_iff]
      exact exists_congr fun rest => eq_comm
    rw [spelled', offsetOf?, splitAtWord]
    simp only [here]
    split
    · rfl
    · rw [spelled, offsetOf?_continued begins continued, ← spelled, ih, Option.map_map,
        Option.map_map, Option.map_map]
      congr 1
      funext parts
      simp [← size]
      omega

theorem isPrefix_of_splitAtWord {word text gap found : List Char}
    (split : splitAtWord word text = some (gap, found)) : word <+: found := by
  induction text generalizing gap with
  | nil =>
    rw [splitAtWord] at split
    split at split
    · next empty =>
      cases split
      exact List.isEmpty_iff.1 empty ▸ List.nil_prefix
    · cases split
  | cons c text ih =>
    rw [splitAtWord] at split
    split at split
    · next here =>
      cases split
      obtain ⟨rest, begins⟩ := Option.isSome_iff_exists.1 here
      exact ⟨rest, (afterWord?_eq_some_iff.1 begins).symm⟩
    · obtain ⟨⟨gap', found'⟩, later, same⟩ := Option.map_eq_some_iff.1 split
      cases same
      exact ih later

section Search

variable {c : Char} {word before : List Char} {cursor : Cursor}

/-- What a search on bytes answers, when a search on characters has found something or nothing: the
same call site, and a place with the same text before it and behind it. -/
inductive Found (source : List Char) : Option (Occurrence × Cursor) → Option CallSite × Nat → Prop
  | nothing : Found source none (none, byteLength source)
  | site {before rest : List Char} (occurrence : Occurrence) : before ++ rest = source →
      Found source (some (occurrence, .between before rest))
        (some occurrence.site, byteLength before)

/-- The gap before a call site does not matter. -/
theorem Found.map {source : List Char} {found : Option (Occurrence × Cursor)}
    {answer : Option CallSite × Nat} (same : Found source found answer)
    (widen : List Char → List Char) :
    Found source (found.map fun (occurrence, after) =>
      ({ occurrence with gap := widen occurrence.gap }, after)) answer := by
  cases same with
  | nothing => exact .nothing
  | site occurrence whole => exact .site { occurrence with gap := widen occurrence.gap } whole

section Steps

variable {callee source rest : List UInt8} {first : Char} {place offset : Nat}

/-- A search at a boundary ends if the callee does not stand behind it. -/
theorem searchFrom_none (opened : cut source place source.length = .ok rest)
    (missing : offsetOf? callee rest = none) :
    searchFrom callee source first place = .ok (none, source.length) := by
  rw [searchFrom]
  split
  · next fault =>
    rw [opened] at fault
    cases fault
  · next rest' opened' =>
    obtain rfl := Except.ok.inj (opened.symm.trans opened')
    split
    · rfl
    · next found =>
      rw [missing] at found
      cases found

/-- A search at a boundary goes on where the callee stands behind it. -/
theorem searchFrom_some (opened : cut source place source.length = .ok rest)
    (found : offsetOf? callee rest = some offset) :
    searchFrom callee source first place =
      match byteCall? callee source (place + offset) with
      | .error fault => .error fault
      | .ok (some site) => .ok (some site, site.stop)
      | .ok none => searchFrom callee source first (place + offset + first.utf8Size) := by
  rw [searchFrom]
  split
  · next fault =>
    rw [opened] at fault
    cases fault
  · next rest' opened' =>
    obtain rfl := Except.ok.inj (opened.symm.trans opened')
    split
    · next missing =>
      rw [found] at missing
      cases missing
    · next offset' found' =>
      obtain rfl := Option.some.inj (found.symm.trans found')
      rfl

end Steps

/-- A search on bytes ends with the source when the callee does not stand in the rest of it. -/
theorem searchFrom_encode_none {text : List Char} (missing : splitAtWord (c :: word) text = none) :
    searchFrom (encode (c :: word)) (encode (before ++ text)) c (byteLength before) =
      .ok (none, byteLength (before ++ text)) := by
  have nowhere : offsetOf? (encode (c :: word)) (encode text) = none := by
    rw [offsetOf?_encode (List.cons_ne_nil c word), missing]
    rfl
  rw [searchFrom_none (cut_behind before text) nowhere, length_encode]

/-- Where the callee stands next, a search on bytes finds what is read as a call there, and goes on
behind the first character if nothing is. -/
theorem searchFrom_encode_some {text gap found : List Char}
    (split : splitAtWord (c :: word) text = some (gap, found)) :
    searchFrom (encode (c :: word)) (encode (before ++ text)) c (byteLength before) =
      match (Cursor.between (before ++ gap) found).call? (c :: word) with
      | some (literal, _) =>
        .ok (some ((Cursor.between (before ++ gap) found).site (c :: word) literal),
          byteLength (before ++ gap ++ callText (c :: word) literal))
      | none => searchFrom (encode (c :: word)) (encode (before ++ text)) c
          (byteLength (before ++ gap ++ [c])) := by
  have here : offsetOf? (encode (c :: word)) (encode text) = some (byteLength gap) := by
    rw [offsetOf?_encode (List.cons_ne_nil c word), split]
    rfl
  have answer := byteCall?_encode (before ++ gap) found (isPrefix_of_splitAtWord split)
  rw [List.append_assoc, splitAtWord_eq split] at answer
  rw [searchFrom_some (cut_behind before text) here, ← byteLength_append, answer]
  cases (Cursor.between (before ++ gap) found).call? (c :: word) with
  | none =>
    rw [byteLength_append (before ++ gap)]
    rfl
  | some parts =>
    obtain ⟨literal, rest⟩ := parts
    simp only [Option.map_some, Cursor.site_stop]

/-- A search on bytes finds what the search on characters finds. -/
theorem searchFrom_encode (c : Char) (word : List Char)
    (stands : cursor = .between before cursor.rest) :
    ∃ answer, searchFrom (encode (c :: word)) (encode (before ++ cursor.rest)) c
        (byteLength before) = .ok answer ∧
      Found (before ++ cursor.rest) (nextFrom (c :: word) cursor) answer := by
  fun_induction nextFrom (c :: word) cursor generalizing before with
  | case1 cursor split => exact ⟨_, searchFrom_encode_none split, .nothing⟩
  | case2 cursor gap split =>
    have begins := isPrefix_of_splitAtWord split
    exact absurd (List.prefix_nil.1 begins) (List.cons_ne_nil c word)
  | case3 cursor gap d text split place literal rest =>
    rename_i called
    have here : place = .between (before ++ gap) (d :: text) := Cursor.over_eq stands gap _
    rw [here] at called ⊢
    rw [searchFrom_encode_some split, called, Cursor.over_between]
    refine ⟨_, rfl, .site ⟨gap, _⟩ ?_⟩
    rw [← splitAtWord_eq split, (Cursor.call?_between called).2]
    simp
  | case4 cursor gap d text split place uncalled =>
    rename_i ih
    have here : place = .between (before ++ gap) (d :: text) := Cursor.over_eq stands gap _
    obtain ⟨rfl, -⟩ := List.cons_prefix_cons.1 (isPrefix_of_splitAtWord split)
    rw [here] at uncalled
    rw [searchFrom_encode_some split, uncalled]
    have behind : place.over [c] text = .between (before ++ gap ++ [c]) text := by
      rw [here, Cursor.over_between]
    have whole : before ++ gap ++ [c] ++ text = before ++ cursor.rest := by
      rw [← splitAtWord_eq split]
      simp
    have rest : (place.over [c] text).rest = text := rfl
    obtain ⟨later, searched, same⟩ := ih behind
    rw [rest, whole] at searched same
    exact ⟨later, searched, same.map fun gap' => gap ++ c :: gap'⟩

end Search

/-! ### One search after another -/

/-- What a number of searches in turn find. -/
def Scanner.results (scanner : Scanner) : Nat → List (Option CallSite)
  | 0 => []
  | n + 1 => scanner.next.1.map Occurrence.site :: scanner.next.2.results n

/-- A search on bytes has come as far as a search on characters. The place does not matter for an
empty callee. -/
structure Follows (bytes : ByteScanner) (scanner : Scanner) (before : List Char) : Prop where
  callee : bytes.callee = encode scanner.callee
  stands : scanner.cursor = .between before scanner.cursor.rest
  source : bytes.source = encode (before ++ scanner.cursor.rest)
  place : scanner.callee ≠ [] → bytes.place = byteLength before

theorem follows_start (callee source : String) :
    Follows (ByteScanner.start callee source) (Scanner.start callee source) [] :=
  ⟨rfl, rfl, rfl, fun _ => rfl⟩

/-- **The next search finds the same**, and both have come equally far again. -/
theorem Follows.next {bytes : ByteScanner} {scanner : Scanner} {before : List Char}
    (follows : Follows bytes scanner before) :
    ∃ after before', bytes.next = .ok (scanner.next.1.map Occurrence.site, after) ∧
      Follows after scanner.next.2 before' := by
  obtain ⟨callee, stands, source, place⟩ := follows
  have ended : scanner.cursor.over scanner.cursor.rest [] =
      .between (before ++ scanner.cursor.rest) [] := Cursor.over_eq stands _ _
  rw [ByteScanner.next, callee, decodeLossy_encode]
  cases spelled : scanner.callee with
  | nil =>
    refine ⟨bytes, before ++ scanner.cursor.rest, ?_, ⟨?_, ?_, ?_, ?_⟩⟩
    · simp [Scanner.next, spelled]
    all_goals simp [Scanner.next, spelled, ended, callee, source, Cursor.between]
  | cons c word =>
    have begins : scanner.callee ≠ [] := spelled ▸ List.cons_ne_nil c word
    obtain ⟨answer, searched, same⟩ := searchFrom_encode c word stands
    rw [← source, ← place begins] at searched
    have next : scanner.next = (nextFrom (c :: word) scanner.cursor).elim
        (none, { scanner with cursor := scanner.cursor.over scanner.cursor.rest [] })
        fun found => (some found.1, { scanner with cursor := found.2 }) := by
      rw [Scanner.next, spelled]
      cases nextFrom (c :: word) scanner.cursor <;> rfl
    simp only [List.head?_cons, searched, bind, Except.bind, pure, Except.pure]
    rw [next]
    generalize nextFrom (c :: word) scanner.cursor = found at same
    cases same with
    | nothing =>
      refine ⟨_, before ++ scanner.cursor.rest, rfl, ⟨congrArg encode spelled.symm, ended, ?_,
        fun _ => rfl⟩⟩
      simp only [Option.elim_none, ended, Cursor.between, List.append_nil]
      exact source
    | @site before' rest occurrence whole =>
      refine ⟨_, before', rfl, ⟨congrArg encode spelled.symm, rfl, ?_, fun _ => rfl⟩⟩
      rw [source, ← whole]
      rfl

/-- **Any number of searches in turn find the same**, and no cut is refused. -/
theorem Follows.results {bytes : ByteScanner} {scanner : Scanner} {before : List Char}
    (follows : Follows bytes scanner before) (n : Nat) :
    bytes.results n = .ok (scanner.results n) := by
  induction n generalizing bytes scanner before with
  | zero => rfl
  | succ n ih =>
    obtain ⟨after, before', next, later⟩ := follows.next
    rw [ByteScanner.results, next]
    simp only [bind, Except.bind, ih later]
    rfl

/-! ### The grammar on bytes -/

/-- The bytes of a callee stand at boundaries only. -/
theorem isBoundary_of_isPrefix {word : List Char} (nonempty : word ≠ []) {text : List Char}
    {start : Nat} (occurs : encode word <+: (encode text).drop start) :
    isBoundary (encode text) start = true := by
  obtain ⟨c, word, rfl⟩ := List.exists_cons_of_ne_nil nonempty
  obtain ⟨first, others, bytes, begins, -⟩ := utf8EncodeChar_shape c
  obtain ⟨rest, whole⟩ := occurs
  have byte : (encode text)[start]? = some first := by
    rw [← List.head?_drop, ← whole]
    simp [bytes]
  rw [isBoundary, byte]
  simp [begins]

/-- **What is read as a call is the grammar of calls.** Where the bytes of a callee stand in those
of a source, the source can be cut. A call is read there exactly if no character before continues
the callee and a literal in parentheses stands behind it, in which an escape takes one character
along; of such literals there is one. No cut is refused, neither there nor in any number of searches
in turn, which find what the searches on characters find. -/
theorem byteCall?_accepts_grammar (callee source : String) :
    (∀ start, callee ≠ "" → encode callee.toList <+: (encode source.toList).drop start →
      (∃ before rest, before ++ rest = source.toList ∧ byteLength before = start) ∧
        ∀ before rest, before ++ rest = source.toList → byteLength before = start →
          ∃ answer, byteCall? (encode callee.toList) (encode source.toList) start = .ok answer ∧
            (∀ site, answer = some site ↔ IsCallAt callee.toList before rest site) ∧
            answer = ((Cursor.between before rest).call? callee.toList).map fun (literal, _) =>
              (Cursor.between before rest).site callee.toList literal) ∧
      (∀ literal after literal' after', IsLiteral literal → IsLiteral literal' →
        literal ++ after = literal' ++ after' → literal = literal') ∧
      ∀ n, (ByteScanner.start callee source).results n =
        .ok ((Scanner.start callee source).results n) := by
  refine ⟨fun start nonempty occurs => ⟨?_, ?_⟩, fun _ _ _ _ => IsLiteral.unique,
    (follows_start callee source).results⟩
  · have nonempty' : callee.toList ≠ [] := fun empty => nonempty (String.toList_eq_nil_iff.1 empty)
    exact isBoundary_encode_iff.1 (isBoundary_of_isPrefix nonempty' occurs)
  · rintro before rest whole rfl
    rw [← whole, encode_append, ← length_encode, List.drop_left, encode_isPrefix_iff] at occurs
    refine ⟨_, ?_, fun site => site_eq_some_iff, rfl⟩
    rw [← whole]
    exact byteCall?_encode before rest occurs

/-- An escape takes a character of four bytes along, and the quotation mark behind it closes the
literal. -/
theorem escape_takes_one_character :
    "f" ≠ "" ∧ encode "f".toList <+: (encode "→f(\"\\😀\")".toList).drop 3 ∧
      byteCall? (encode "f".toList) (encode "→f(\"\\😀\")".toList) 3 =
        .ok (some ⟨3, 13, ['"', '\\', '😀', '"']⟩) ∧
      (ByteScanner.start "f" "→f(\"\\😀\")").results 2 =
        .ok [some ⟨3, 13, ['"', '\\', '😀', '"']⟩, none] := by
  have nonempty : "f" ≠ "" := by decide
  have occurs : encode "f".toList <+: (encode "→f(\"\\😀\")".toList).drop 3 := by decide +kernel
  obtain ⟨calls, -, results⟩ := byteCall?_accepts_grammar "f" "→f(\"\\😀\")"
  obtain ⟨answer, read, grammar, -⟩ := (calls 3 nonempty occurs).2 ['→']
    "f(\"\\😀\")".toList (by decide +kernel) (by decide +kernel)
  have isCall : IsCallAt "f".toList ['→'] "f(\"\\😀\")".toList
      ⟨3, 13, ['"', '\\', '😀', '"']⟩ :=
    ⟨by decide +kernel, ⟨'"', _, .inl rfl, .escape '😀' .nil, rfl⟩, ⟨[], by decide +kernel⟩,
      by decide +kernel, by decide +kernel⟩
  refine ⟨nonempty, occurs, ?_, ?_⟩
  · rw [read, (grammar _).2 isCall]
  · rw [results]
    decide +kernel

end RenderLink
