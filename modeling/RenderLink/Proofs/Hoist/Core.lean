/-
**The core of a literal.**

The core of a literal is its runs of ASCII letters and digits, joined by single underscores. It is
written in one pass that looks back at the last character only. After each character the text
written so far is that of some finished runs, each with an underscore behind it, and of a run that
may still grow (`written`). At the end the underscore behind the last finished run is taken back.

* `foldl_written`: what the pass has written after any beginning of a literal.
* `sanitize_eq_intercalate`: **the core of a literal** is made of its runs.
* `runs_sanitize`: a core has the runs of its literal.
* `names_from_runs`: cores, and the identifiers that are made of them.
-/

import RenderLink.Proofs.Hoist.PlainName
import RenderLink.Proofs.Hoist.Recovery

namespace RenderLink.Identifier

variable {literal run text rest : List Char} {finished list : List (List Char)} {c : Char}

/-! ### Runs -/

/-- The longest runs of ASCII letters and digits of a text: what stands between its other
characters, where that is not empty. -/
def runs (text : List Char) : List (List Char) :=
  (text.splitOnP fun c => !c.isAlphanum).filter fun piece => !piece.isEmpty

theorem runs_of_alphanumeric (alphanumeric : ∀ c ∈ run, c.isAlphanum = true) :
    runs run = if run = [] then [] else [run] := by
  have whole : run.splitOnP (fun c => !c.isAlphanum) = [run] :=
    List.splitOnP_eq_singleton fun c member => by simp [alphanumeric c member]
  unfold runs
  rw [whole]
  by_cases empty : run = []
  · simp [empty]
  · simp [empty]

/-- Another character ends a run. -/
theorem runs_append_cons (other : ¬c.isAlphanum = true) (text rest : List Char) :
    runs (text ++ c :: rest) = runs text ++ runs rest := by
  unfold runs
  rw [List.splitOnP_append_cons text rest (by simpa using other), List.filter_append]

theorem alphanumeric_of_mem_splitOnP {piece : List Char}
    (among : piece ∈ text.splitOnP fun c => !c.isAlphanum) :
    ∀ c ∈ piece, c.isAlphanum = true := by
  induction text generalizing piece with
  | nil =>
    rw [List.splitOnP_nil, List.mem_singleton] at among
    simp [among]
  | cons c rest ih =>
    rw [List.splitOnP_cons_eq_if_modifyHead] at among
    split at among
    · rcases List.mem_cons.mp among with rfl | later
      · simp
      · exact ih later
    · next kept =>
      cases pieces : rest.splitOnP fun c => !c.isAlphanum with
      | nil => exact absurd pieces (List.splitOnP_ne_nil _ rest)
      | cons first others =>
        rw [pieces] at among ih
        obtain ⟨here, later⟩ := List.forall_mem_cons.mp fun piece => @ih piece
        rcases List.mem_cons.mp among with rfl | behind
        · exact List.forall_mem_cons.mpr ⟨by simpa using kept, here⟩
        · exact later piece behind

theorem mem_runs (member : run ∈ runs text) : run ≠ [] ∧ ∀ c ∈ run, c.isAlphanum = true := by
  obtain ⟨among, filled⟩ := List.mem_filter.mp member
  exact ⟨by simpa using filled, alphanumeric_of_mem_splitOnP among⟩

/-- Runs are found again in the text that joins them. -/
theorem runs_intercalate
    (areRuns : ∀ run ∈ list, run ≠ [] ∧ ∀ c ∈ run, c.isAlphanum = true) :
    runs (['_'].intercalate list) = list := by
  induction list with
  | nil => rfl
  | cons run others ih =>
    obtain ⟨⟨filled, alphanumeric⟩, later⟩ := List.forall_mem_cons.mp areRuns
    have single : runs run = [run] := by
      rw [runs_of_alphanumeric alphanumeric, if_neg filled]
    by_cases last : others = []
    · rw [last, List.intercalate_singleton, single]
    · rw [List.intercalate_cons_of_ne_nil last, List.append_assoc, List.singleton_append,
        runs_append_cons (by decide), single, ih later]
      rfl

/-! ### The pass over a literal -/

/-- The text of finished runs, each with an underscore behind it, and of a run that may grow. -/
def written (finished : List (List Char)) (run : List Char) : List Char :=
  finished.flatMap (· ++ ['_']) ++ run

theorem extendCore_alphanumeric (alphanumeric : c.isAlphanum = true) :
    extendCore (written finished run).reverse c = (written finished (run ++ [c])).reverse := by
  simp [extendCore, alphanumeric, written]

/-- The pass has an underscore before it just when the last run is finished. -/
theorem head?_written_iff (alphanumeric : ∀ c ∈ run, c.isAlphanum = true) :
    (written finished run).reverse.head? = some '_' ↔ finished ≠ [] ∧ run = [] := by
  rw [List.head?_reverse]
  by_cases empty : run = []
  · subst empty
    rcases List.eq_nil_or_concat finished with rfl | ⟨front, last, rfl⟩
    · simp [written]
    · simp [written]
  · refine iff_of_false (fun ends => ?_) fun both => empty both.2
    rw [written, List.getLast?_append_of_ne_nil _ empty] at ends
    exact absurd (alphanumeric '_' (List.mem_of_getLast? ends)) (by decide)

/-- Another character finishes the run, if there is one. -/
theorem extendCore_other (other : ¬c.isAlphanum = true)
    (alphanumeric : ∀ c ∈ run, c.isAlphanum = true) :
    extendCore (written finished run).reverse c = (written (finished ++ runs run) []).reverse := by
  have ending := @head?_written_iff run finished alphanumeric
  unfold extendCore
  rw [if_neg other, runs_of_alphanumeric alphanumeric]
  by_cases empty : run = []
  · subst empty
    rw [if_pos rfl, List.append_nil, if_neg]
    rintro ⟨some, notEnding⟩
    have nothing : finished = [] := by_contra fun more => notEnding (ending.mpr ⟨more, rfl⟩)
    exact some (by rw [nothing]; rfl)
  · rw [if_neg empty, if_pos ⟨by simp [written, empty], fun ends => empty (ending.mp ends).2⟩]
    simp [written]

/-- What the pass has written after any beginning of a literal. -/
theorem foldl_written (literal : List Char) (finished : List (List Char))
    (alphanumeric : ∀ c ∈ run, c.isAlphanum = true) :
    ∃ finished' run', (∀ c ∈ run', c.isAlphanum = true) ∧
      finished' ++ runs run' = finished ++ runs (run ++ literal) ∧
      literal.foldl extendCore (written finished run).reverse =
        (written finished' run').reverse := by
  -- of what is finished, of the run and of the rest, the runs together stay the same
  induction literal generalizing finished run with
  | nil => exact ⟨finished, run, alphanumeric, by rw [List.append_nil], rfl⟩
  | cons c rest ih =>
    rw [List.foldl_cons]
    by_cases kept : c.isAlphanum = true
    · rw [extendCore_alphanumeric kept, List.append_cons]
      apply ih finished
      exact List.forall_mem_append.mpr ⟨alphanumeric, List.forall_mem_singleton.mpr kept⟩
    · rw [extendCore_other kept alphanumeric, runs_append_cons kept, ← List.append_assoc]
      exact ih _ (List.forall_mem_nil _)

theorem intercalate_concat (finished : List (List Char)) (run : List Char) :
    ['_'].intercalate (finished ++ [run]) = written finished run := by
  induction finished with
  | nil => simp [written]
  | cons first others ih =>
    have more : others ++ [run] ≠ [] := List.append_ne_nil_of_right_ne_nil others (by simp)
    rw [List.cons_append, List.intercalate_cons_of_ne_nil more, ih]
    simp [written]

/-- At the end an underscore behind the last finished run is taken back. -/
theorem trim_written (alphanumeric : ∀ c ∈ run, c.isAlphanum = true) :
    (if (written finished run).reverse.head? = some '_' then (written finished run).reverse.tail
      else (written finished run).reverse).reverse = ['_'].intercalate (finished ++ runs run) := by
  have ending := @head?_written_iff run finished alphanumeric
  rw [runs_of_alphanumeric alphanumeric]
  by_cases empty : run = []
  · rw [if_pos empty, List.append_nil]
    subst empty
    rcases List.eq_nil_or_concat finished with rfl | ⟨front, last, rfl⟩
    · rfl
    · rw [if_pos (ending.mpr ⟨by simp, rfl⟩), List.concat_eq_append, intercalate_concat]
      simp [written]
  · rw [if_neg empty, if_neg fun ends => empty (ending.mp ends).2, List.reverse_reverse,
      intercalate_concat]

/-- **The core of a literal** is its runs, joined by single underscores. -/
theorem sanitize_eq_intercalate (literal : List Char) :
    sanitize literal = ['_'].intercalate (runs literal) := by
  obtain ⟨finished, run, alphanumeric, same, core⟩ :=
    @foldl_written [] literal [] (List.forall_mem_nil _)
  have start : literal.foldl extendCore [] = (written finished run).reverse := core
  unfold sanitize
  rw [start]
  exact (trim_written alphanumeric).trans (congrArg _ same)

/-- A core has the runs of its literal. -/
theorem runs_sanitize (literal : List Char) : runs (sanitize literal) = runs literal := by
  rw [sanitize_eq_intercalate, runs_intercalate fun run => mem_runs]

theorem sanitize_sanitize (literal : List Char) :
    sanitize (sanitize literal) = sanitize literal := by
  rw [sanitize_eq_intercalate (sanitize literal), runs_sanitize, ← sanitize_eq_intercalate]

/-- A core does not begin with an underscore. -/
theorem head?_sanitize_ne (literal : List Char) : (sanitize literal).head? ≠ some '_' := by
  rw [sanitize_eq_intercalate]
  cases list : runs literal with
  | nil => simp
  | cons run others =>
    obtain ⟨filled, alphanumeric⟩ := @mem_runs run literal (list ▸ List.mem_cons_self)
    obtain ⟨c, rest, rfl⟩ := List.exists_cons_of_ne_nil filled
    rw [List.intercalate_cons_cons_left, List.head?_cons]
    rintro ⟨⟩
    exact absurd (alphanumeric '_' List.mem_cons_self) (by decide)

/-- Two underscores do not stand next to each other in a text of letters, digits and single
underscores. -/
theorem IsSpaced.not_infix (spaced : IsSpaced text) : ¬['_', '_'] <:+: text := by
  intro inside
  have pair := spaced.separated.infix inside
  simp at pair

/-! ### Identifiers -/

/-- The words that no script of a module can bind. -/
def reservedWords : List String :=
  ["arguments", "await", "break", "case", "catch", "class", "const", "continue", "debugger",
    "default", "delete", "do", "else", "enum", "eval", "export", "extends", "false", "finally",
    "for", "function", "if", "implements", "import", "in", "instanceof", "interface", "let", "new",
    "null", "package", "private", "protected", "public", "return", "static", "super", "switch",
    "this", "throw", "true", "try", "typeof", "var", "void", "while", "with", "yield"]

/-- A name that a script can bind: letters, digits, underscores and dollar signs, with no digit in
front, and no reserved word. -/
structure IsBindable (name : String) : Prop where
  characters : ∀ c ∈ name.toList, isIdentifierChar c = true
  start : ∃ first rest, name.toList = first :: rest ∧ first.isDigit = false
  unreserved : name ∉ reservedWords

end RenderLink.Identifier

namespace RenderLink

open Identifier

/-- An identifier around a stem begins with the opening of all identifiers, and a script can bind
it: no reserved word begins with an underscore. -/
theorem isBindable_of_wrap {callee name : String} {stem : List Char}
    (plain : ∀ c ∈ callee.toList, isIdentifierChar c = true) (isStem : IsStem stem)
    (shape : name.toList = wrap callee.toList stem) :
    "__$_".toList <+: name.toList ∧ IsBindable name := by
  obtain ⟨rest, opening⟩ : "__$_".toList <+: name.toList := by
    rw [shape, wrap, List.append_assoc]
    exact List.prefix_append _ _
  refine ⟨⟨rest, opening⟩, ?_, ⟨'_', _, opening.symm, rfl⟩, fun reserved => ?_⟩
  · rw [shape]
    exact fun c => isIdentifierChar_of_mem_wrap plain isStem
  · have letters : ∀ word ∈ reservedWords, word.toList.head? ≠ some '_' := by decide +kernel
    apply letters name reserved
    rw [← opening]
    rfl

/-- **Cores and the names made of them.** The core of a literal is its runs of letters and digits in
their order, joined by single underscores. So no underscore stands at an end of it or next to
another one, and it is its own core. Where a callee is made of letters, digits, underscores and
dollar signs, so is every identifier that is bound for it, and a script can bind that name. -/
theorem names_from_runs :
    (∀ literal, sanitize literal = ['_'].intercalate (runs literal) ∧
      (sanitize literal).head? ≠ some '_' ∧ (sanitize literal).getLast? ≠ some '_' ∧
      ¬['_', '_'] <:+: sanitize literal ∧ sanitize (sanitize literal) = sanitize literal) ∧
    ∀ callee source : String, (∀ c ∈ callee.toList, isIdentifierChar c = true) →
      ∀ binding ∈ (hoist callee source).bindings,
        "__$_".toList <+: binding.identifier.toList ∧ IsBindable binding.identifier := by
  constructor
  · intro literal
    have isStem := sanitize_isStem literal
    exact ⟨sanitize_eq_intercalate literal, head?_sanitize_ne literal, isStem.closed,
      isStem.toIsSpaced.not_infix, sanitize_sanitize literal⟩
  · intro callee source plain binding member
    obtain ⟨stem, isStem, shape⟩ := (named_bindings callee source).stems binding member
    exact isBindable_of_wrap plain isStem shape

/-- Two literals without letters and digits, whose cores are empty. -/
def emptyCores : String := "require(\"\"); require('')"

theorem hoist_emptyCores : (hoist "require" emptyCores).bindings =
    [⟨"\"\"", "__$_require___"⟩, ⟨"''", "__$_require__2__"⟩] := by
  refine hoist_bindings_of_named (BindingTable.named_concat_iff.mpr
    ⟨BindingTable.named_concat_iff.mpr ⟨BindingTable.named_nil, ?_⟩, ?_⟩) (by decide +kernel)
  · exact .plain (by decide +kernel)
  · exact .numbered 2 le_rfl (by decide +kernel) (by omega) (by decide +kernel)

/-- The numbered name of an empty core can be bound. -/
theorem bindable_of_empty_core :
    (∀ c ∈ "require".toList, isIdentifierChar c = true) ∧
      ⟨"''", "__$_require__2__"⟩ ∈ (hoist "require" emptyCores).bindings ∧
      "__$_".toList <+: "__$_require__2__".toList ∧ IsBindable "__$_require__2__" := by
  have plain : ∀ c ∈ "require".toList, isIdentifierChar c = true :=
    List.all_eq_true.mp (by decide)
  have member : ⟨"''", "__$_require__2__"⟩ ∈ (hoist "require" emptyCores).bindings := by
    rw [hoist_emptyCores]
    decide
  exact ⟨plain, member, names_from_runs.2 "require" emptyCores plain _ member⟩

end RenderLink
