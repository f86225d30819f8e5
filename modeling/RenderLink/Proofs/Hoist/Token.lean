/-
**Inserted identifiers as tokens.**

An identifier that hoisting inserts is a token of the body if no character that identifiers are made
of stands right before it or right behind it. On its left the look-behind of the search sees to
that, unless the identifier of another call site stands there; on its right nothing does, since the
parenthesis that closed the call is gone.

* `Leftmost.drop`: behind some of its call sites a search finds the others.
* `left_separate_iff`, `right_continues_eq`: the two neighbours of an identifier.
* `identifier_isToken_iff`: **an inserted identifier is a token exactly if** no call site ends where
  its own begins and no identifier character stands behind its call site in the source.
-/

import RenderLink.Proofs.Hoist.Recovery

namespace RenderLink

open Identifier Text

/-- No identifier character stands between a text and the text behind a place. -/
def IsToken (left right : List Char) : Prop :=
  left.getLast?.any isIdentifierChar = false ∧ right.head?.any isIdentifierChar = false

/-- What is written for call sites: their gaps and the names of their literals. -/
def written (name : String → String) (occurrences : List Occurrence) : List Char :=
  occurrences.flatMap fun occurrence =>
    occurrence.gap ++ (name (String.ofList occurrence.site.literal)).toList

theorem written_append (name : String → String) (first second : List Occurrence) :
    written name (first ++ second) = written name first ++ written name second :=
  List.flatMap_append

theorem written_cons (name : String → String) (occurrence : Occurrence)
    (second : List Occurrence) :
    written name (occurrence :: second) = occurrence.gap ++
      (name (String.ofList occurrence.site.literal)).toList ++ written name second :=
  List.flatMap_cons

variable {callee before text tail : List Char} {name : String → String}
variable {first second occurrences : List Occurrence} {occurrence : Occurrence}

/-! ### One call site among others -/

/-- The text of call sites with the gaps before them. -/
def sourceText (callee : List Char) (occurrences : List Occurrence) : List Char :=
  occurrences.flatMap fun occurrence => occurrence.gap ++ callText callee occurrence.site.literal

/-- Behind the first call sites the search finds the others. -/
theorem Leftmost.drop
    (leftmost : Leftmost callee before text (first ++ second) tail) :
    ∃ rest, text = sourceText callee first ++ rest ∧
      Leftmost callee (before ++ sourceText callee first) rest second tail := by
  induction first generalizing before text with
  | nil => exact ⟨text, rfl, by simpa [sourceText] using leftmost⟩
  | cons occurrence first ih =>
    cases leftmost with
    | @site _ gap literal rest _ _ uncalled called later =>
      obtain ⟨rest', whole, further⟩ := ih later
      refine ⟨rest', ?_, ?_⟩
      · rw [whole]
        simp [sourceText, Cursor.site]
      · simpa [sourceText, Cursor.site] using further

/-- The call of a call site ends where the text of the call sites up to it does. -/
theorem Leftmost.stop_eq
    (leftmost : Leftmost callee before text (first ++ occurrence :: second) tail) :
    occurrence.site.stop = byteLength (before ++ sourceText callee (first ++ [occurrence])) := by
  obtain ⟨rest, -, here⟩ := leftmost.drop
  cases here with
  | @site _ gap literal =>
    simp only [sourceText, List.flatMap_append, List.flatMap_cons, List.flatMap_nil,
      byteLength_append, Cursor.site, Cursor.between, byteLength_callText, byteLength_nil]
    omega

/-- A call site stands behind no character that continues a name. -/
theorem Leftmost.gap_separate
    (leftmost : Leftmost callee before text (first ++ occurrence :: second) tail) :
    occurrence.gap.getLast?.any isIdentifierChar = false := by
  obtain ⟨rest, -, here⟩ := leftmost.drop
  cases here with
  | site _ called _ => exact separate_of_call called

/-! ### Neighbours of an identifier -/

/-- Identifiers of a callee for the literals of call sites. -/
def NamesCalls (callee : List Char) (name : String → String) (occurrences : List Occurrence) :
    Prop :=
  ∀ occurrence ∈ occurrences, ∃ stem,
    (name (String.ofList occurrence.site.literal)).toList = wrap callee stem

theorem getLast?_wrap (callee stem : List Char) : (wrap callee stem).getLast? = some '_' := by
  rw [wrap_eq, List.getLast?_append]
  rfl

/-- What stands right before an identifier is a character of the gap, or else it is the end of the
identifier before it. -/
theorem left_separate_iff
    (leftmost : Leftmost callee before text (first ++ occurrence :: second) tail)
    (named : NamesCalls callee name first) :
    (written name first ++ occurrence.gap).getLast?.any isIdentifierChar = false ↔
      first = [] ∨ occurrence.gap ≠ [] := by
  by_cases adjacent : occurrence.gap = []
  · rw [adjacent, List.append_nil]
    rcases List.eq_nil_or_concat first with rfl | ⟨earlier, previous, rfl⟩
    · simp [written]
    · obtain ⟨stem, shape⟩ := named previous (by simp)
      have ends : (written name (earlier.concat previous)).getLast? = some '_' := by
        simp [written, shape, getLast?_wrap, List.getLast?_append]
      rw [ends]
      simp [isIdentifierChar]
  · have last : (written name first ++ occurrence.gap).getLast? = occurrence.gap.getLast? := by
      rw [List.getLast?_append, List.getLast?_eq_getLast_of_ne_nil adjacent, Option.some_or]
    rw [last, leftmost.gap_separate]
    simp [adjacent]

/-- What stands right behind an identifier continues it exactly if what stands behind its call in
the source does: a callee begins with an identifier character, and so does an identifier. -/
theorem right_continues_eq (plain : ∀ c ∈ callee, isIdentifierChar c = true)
    (nonempty : callee ≠ []) (leftmost : Leftmost callee before text occurrences tail)
    (named : NamesCalls callee name occurrences) :
    (written name occurrences ++ tail).head?.any isIdentifierChar =
      text.head?.any isIdentifierChar := by
  cases leftmost with
  | done => simp [written]
  | @site _ gap literal rest _ later _ _ _ =>
    cases gap with
    | cons c gap => simp [written]
    | nil =>
      obtain ⟨c, callee', rfl⟩ := List.exists_cons_of_ne_nil nonempty
      obtain ⟨stem, shape⟩ := named _ List.mem_cons_self
      have opening : isIdentifierChar c = true := plain c List.mem_cons_self
      have underscore : isIdentifierChar '_' = true := rfl
      simp only [Cursor.site] at shape
      simp [written, Cursor.site, shape, wrap, callText, opening, underscore]

/-- An identifier among gaps and identifiers is a token exactly if its gap is not empty, or nothing
comes before it, and what stands behind its call in the source does not continue it. -/
theorem Leftmost.isToken_iff (plain : ∀ c ∈ callee, isIdentifierChar c = true)
    (nonempty : callee ≠ [])
    (leftmost : Leftmost callee [] text (first ++ occurrence :: second) tail)
    (named : NamesCalls callee name (first ++ occurrence :: second)) :
    IsToken (written name first ++ occurrence.gap) (written name second ++ tail) ↔
      (first = [] ∨ occurrence.gap ≠ []) ∧
        (dropBytes occurrence.site.stop text).head?.any isIdentifierChar = false := by
  have whole : first ++ occurrence :: second = first ++ [occurrence] ++ second := by simp
  have stop := leftmost.stop_eq
  have namedFirst : NamesCalls callee name first := fun other member =>
    named other (List.mem_append_left _ member)
  have namedSecond : NamesCalls callee name second := fun other member =>
    named other (List.mem_append_right _ (List.mem_cons_of_mem _ member))
  have left := left_separate_iff leftmost namedFirst
  rw [whole] at leftmost
  obtain ⟨rest, parts, behind⟩ := leftmost.drop
  have right := right_continues_eq plain nonempty behind namedSecond
  have bytes : dropBytes occurrence.site.stop text = rest := by
    rw [stop, parts]
    exact dropBytes_append _ _
  rw [IsToken, left, right, bytes]

/-! ### Identifiers in hoisted code -/

theorem namesCalls_lastTable (callee source : String) :
    NamesCalls callee.toList (lastTable callee source).nameOf
      (Scanner.start callee source).split.1 := by
  intro occurrence member
  obtain ⟨stem, -, shape⟩ :=
    (named_bindings callee source).stems _ (mem_hoist_bindings member)
  exact ⟨stem, shape⟩

/-- **When an inserted identifier is a token.** The code of a source is, for each call site, what is
written before it, the identifier of its literal and what is written behind. The identifier is a
token there exactly if there is text between its call site and the one before, and no identifier
character stands behind its call site in the source. -/
theorem identifier_isToken_iff (source : String) :
    let split := (Scanner.start Hoisted.defaultCallee source).split
    let result := hoist Hoisted.defaultCallee source
    ∃ name : String → String, ∀ i : Fin split.1.length,
      let site := split.1[i].site
      let left := written name (split.1.take i) ++ split.1[i].gap
      let right := written name (split.1.drop (i + 1)) ++ split.2
      ⟨String.ofList site.literal, name (String.ofList site.literal)⟩ ∈ result.bindings ∧
        result.code.toList = Hoisted.imports result.bindings ++
          (left ++ (name (String.ofList site.literal)).toList ++ right) ∧
        (IsToken left right ↔ (i.val = 0 ∨ split.1[i].gap ≠ []) ∧
          (dropBytes site.stop source.toList).head?.any isIdentifierChar = false) := by
  intro split result
  refine ⟨(lastTable Hoisted.defaultCallee source).nameOf, fun i => ?_⟩
  intro site left right
  have plain : ∀ c ∈ Hoisted.defaultCallee.toList, isIdentifierChar c = true :=
    List.all_eq_true.1 (by decide)
  have parts : split.1.take i ++ split.1[i] :: split.1.drop (i + 1) = split.1 := by simp
  have first : split.1.take i = [] ↔ i.val = 0 := by
    rw [List.take_eq_nil_iff]
    have inhabited : split.1 ≠ [] := List.ne_nil_of_length_pos (Nat.zero_lt_of_lt i.isLt)
    simp [inhabited]
  refine ⟨mem_hoist_bindings (List.getElem_mem i.isLt), ?_, ?_⟩
  · have code : result.code.toList = Hoisted.imports result.bindings ++
        (written (lastTable Hoisted.defaultCallee source).nameOf split.1 ++ split.2) :=
      hoist_code Hoisted.defaultCallee source
    have inserted := congrArg (written (lastTable Hoisted.defaultCallee source).nameOf) parts
    rw [written_append, written_cons] at inserted
    rw [code, ← inserted]
    simp only [left, right, site, List.append_assoc]
  · rw [← first]
    have nonempty : Hoisted.defaultCallee ≠ "" := by decide
    refine Leftmost.isToken_iff plain (by decide) ?_ ?_
    · rw [parts]
      exact start_leftmost nonempty source
    · rw [parts]
      exact namesCalls_lastTable _ _

/-- The search finds a call that a word follows, and behind it the word. -/
theorem split_of_call_before_word :
    (Scanner.start Hoisted.defaultCallee "require(\"a\")in b").split =
      ([⟨[], ⟨0, 12, ['"', 'a', '"']⟩⟩], ['i', 'n', ' ', 'b']) := by
  have nonempty : Hoisted.defaultCallee ≠ "" := by decide
  have called : (Cursor.between ([] ++ []) (callText Hoisted.defaultCallee.toList ['"', 'a', '"'] ++
      ['i', 'n', ' ', 'b'])).call? Hoisted.defaultCallee.toList =
        some (['"', 'a', '"'], ['i', 'n', ' ', 'b']) := by decide +kernel
  have behind : Leftmost Hoisted.defaultCallee.toList
      ([] ++ [] ++ callText Hoisted.defaultCallee.toList ['"', 'a', '"'])
      ['i', 'n', ' ', 'b'] [] ['i', 'n', ' ', 'b'] :=
    .done ⟨by decide +kernel, by decide +kernel, by decide +kernel, by decide +kernel, trivial⟩
  have whole : Leftmost Hoisted.defaultCallee.toList []
      ([] ++ callText Hoisted.defaultCallee.toList ['"', 'a', '"'] ++ ['i', 'n', ' ', 'b'])
      [⟨[], ⟨0, 12, ['"', 'a', '"']⟩⟩] ['i', 'n', ' ', 'b'] :=
    .site (by trivial) called behind
  obtain ⟨sites, tail⟩ := (start_leftmost nonempty "require(\"a\")in b").unique whole
  exact Prod.ext sites tail

/-- A word behind a call becomes part of the identifier: its closing parenthesis kept them apart. -/
theorem identifier_runs_into_next_word :
    (Scanner.start Hoisted.defaultCallee "require(\"a\")in b").sites =
        [⟨0, 12, ['"', 'a', '"']⟩] ∧
      (hoist Hoisted.defaultCallee "require(\"a\")in b").code =
        "import __$_require_a__ from \"a\"\n__$_require_a__in b" ∧
      ¬ IsToken [] ['i', 'n', ' ', 'b'] := by
  refine ⟨?_, ?_, fun token => ?_⟩
  · rw [Scanner.sites, split_of_call_before_word]
    rfl
  · rw [hoist_of_one_site split_of_call_before_word]
    decide +kernel
  · exact absurd token.2 (by decide)

end RenderLink
