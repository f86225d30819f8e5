/-
**Hoisting clean sources.**

A source is clean if every occurrence of the callee in it is the beginning of a call site. Hoisting
such a source leaves no call: the code is import words, literals, names and gaps, and a call would
need the callee by itself right before an opening parenthesis of one of them.

Words and names have no parenthesis. Literals and gaps have, but not the callee, so the callee would
have to begin before them. There stands nothing, or a character that no callee has, or the end of a
name; and a name is longer than the callee, so that a callee which begins inside of one does not
stand by itself (`sealed_wrap`). This is the invariant that is carried from piece to piece:
`Sealed`, what is written so far does not end in the beginning of a callee by itself.

* `Leftmost.free`: in a clean source the callee stands in no gap and in no literal.
* `Unopened.append`: pieces without calls that are written behind each other have no call.
* `hoist_of_clean`: **hoisting a clean source is complete**, and hoisting once more changes nothing.
-/

import RenderLink.Proofs.Hoist.Token

namespace RenderLink

open Identifier Text

variable {callee before text text' tail : List Char}

/-! ### Parentheses that open no call -/

/-- No parenthesis in a text behind another opens a call: the callee does not stand by itself right
before it. -/
def Unopened (callee before text : List Char) : Prop :=
  ∀ left right first, text = left ++ '(' :: right → before ++ left = first ++ callee →
    first.getLast?.any continuesName = true

/-- A callee that begins inside of a text and goes on behind it is part of a longer name. -/
def Sealed (callee before : List Char) : Prop :=
  ∀ first last rest, before = first ++ last → callee = last ++ rest → last ≠ [] →
    first.getLast?.any continuesName = true

theorem Unopened.append (here : Unopened callee before text)
    (behind : Unopened callee (before ++ text) text') :
    Unopened callee before (text ++ text') := by
  intro left right first whole ends
  rcases List.append_eq_append_iff.1 whole with ⟨later, rfl, parts⟩ | ⟨inside, rfl, parts⟩
  · exact behind later right first parts (by rw [← ends, List.append_assoc])
  · cases inside with
    | nil => exact behind [] right first parts.symm (by simpa using ends)
    | cons c inside =>
      obtain ⟨rfl, -⟩ := List.cons.inj parts
      exact here left inside first rfl ends

theorem unopened_of_not_mem (without : '(' ∉ text) : Unopened callee before text := by
  intro left right first whole
  exact absurd (whole ▸ List.mem_append_right left List.mem_cons_self) without

/-- Behind what is sealed, a text without the callee opens no call. -/
theorem Sealed.unopened (isSealed : Sealed callee before) (absent : ¬ callee <:+: text) :
    Unopened callee before text := by
  rintro left right first rfl ends
  rcases List.append_eq_append_iff.1 ends with ⟨inside, -, rfl⟩ | ⟨last, opened, rest⟩
  · exact absurd ⟨inside, '(' :: right, rfl⟩ absent
  · by_cases none : last = []
    · subst none
      exact absurd ⟨[], '(' :: right, by rw [rest]; rfl⟩ absent
    · exact isSealed first last left opened rest none

/-- In a text that opens no call there is none. -/
theorem Unopened.call?_eq_none {first rest : List Char}
    (unopened : Unopened callee before (first ++ rest)) :
    (Cursor.between (before ++ first) rest).call? callee = none := by
  refine Option.eq_none_iff_forall_ne_some.2 fun ⟨literal, after⟩ called => ?_
  obtain ⟨separate, behind⟩ := Cursor.call?_between called
  have whole : first ++ rest = first ++ callee ++ '(' :: (literal ++ ')' :: after) := by
    rw [behind, callText]
    simp
  rw [unopened _ _ (before ++ first) whole (List.append_assoc ..).symm] at separate
  cases separate

theorem Unopened.uncalled (unopened : Unopened callee before text) :
    Uncalled callee before text [] := by
  induction text generalizing before with
  | nil => trivial
  | cons c text ih =>
    refine ⟨?_, ih fun left right first whole ends => ?_⟩
    · have none := @Unopened.call?_eq_none callee before [] (c :: text) unopened
      rwa [List.append_nil] at none ⊢
    · refine unopened (c :: left) right first (by rw [whole, List.cons_append]) ?_
      rw [← ends, List.append_cons]

/-- A source that opens no call has no call sites. -/
theorem Unopened.sites_eq_nil {callee source : String}
    (unopened : Unopened callee.toList [] source.toList) (nonempty : callee ≠ "") :
    (Scanner.start callee source).sites = [] := by
  obtain ⟨same, -⟩ := (start_leftmost nonempty source).unique (.done unopened.uncalled)
  rw [Scanner.sites, same]
  rfl

/-! ### What seals a text -/

/-- Behind a character that no callee has, and at the beginning, no callee goes on. -/
theorem sealed_of_separate (plain : ∀ c ∈ callee, isIdentifierChar c = true)
    (separate : before.getLast?.any isIdentifierChar = false) : Sealed callee before := by
  rintro first last rest rfl rfl nonempty
  have inside := plain _ (List.mem_append_left rest (List.getLast_mem nonempty))
  rw [List.getLast?_append, List.getLast?_eq_getLast_of_ne_nil nonempty, Option.some_or,
    Option.any_some, inside] at separate
  cases separate

/-- **A name seals what it ends.** It is longer than the callee, and a callee that begins behind its
first character is part of a longer name. -/
theorem sealed_wrap (plain : ∀ c ∈ callee, isIdentifierChar c = true) {stem : List Char}
    (isStem : IsStem stem) (before : List Char) : Sealed callee (before ++ wrap callee stem) := by
  intro first last rest whole parts nonempty
  have shorter : last.length < (wrap callee stem).length := by
    have bound := congrArg List.length parts
    rw [List.length_append] at bound
    rw [wrap_eq, marker]
    simp only [List.length_append, List.length_cons, List.length_nil]
    omega
  obtain ⟨inner, shape⟩ : last <:+ wrap callee stem :=
    List.suffix_of_suffix_length_le ⟨first, whole.symm⟩ (List.suffix_append before _)
      (Nat.le_of_lt shorter)
  have some : inner ≠ [] := by
    rintro rfl
    rw [← shape] at shorter
    exact Nat.lt_irrefl _ shorter
  rw [← shape, ← List.append_assoc, List.append_cancel_right_eq] at whole
  have member : inner.getLast some ∈ wrap callee stem :=
    shape ▸ List.mem_append_left last (List.getLast_mem some)
  rw [← whole, List.getLast?_append, List.getLast?_eq_getLast_of_ne_nil some, Option.some_or,
    Option.any_some]
  exact continuesName_of_isIdentifierChar (isIdentifierChar_of_mem_wrap plain isStem member)

/-! ### Hoisted code -/

/-- A name has no parenthesis. -/
theorem not_mem_wrap (plain : ∀ c ∈ callee, isIdentifierChar c = true) {stem : List Char}
    (isStem : IsStem stem) : '(' ∉ wrap callee stem := fun inside =>
  absurd (isIdentifierChar_of_mem_wrap plain isStem inside) (by decide)

theorem imports_cons (binding : Binding) (bindings : List Binding) :
    Hoisted.imports (binding :: bindings) = "import ".toList ++ binding.identifier.toList ++
      " from ".toList ++ binding.literal.toList ++ ['\n'] ++ Hoisted.imports bindings := by
  simp [Hoisted.imports, Binding.importDeclaration]

theorem imports_separate (bindings : List Binding) :
    (Hoisted.imports bindings).getLast?.any isIdentifierChar = false := by
  induction bindings with
  | nil => rfl
  | cons binding bindings ih =>
    rw [imports_cons, List.getLast?_append]
    cases last : (Hoisted.imports bindings).getLast? with
    | none =>
      rw [List.getLast?_append]
      rfl
    | some c => rwa [last] at ih

/-- Import declarations of literals without the callee open no call. -/
theorem unopened_imports (plain : ∀ c ∈ callee, isIdentifierChar c = true)
    {bindings : List Binding}
    (stems : ∀ binding ∈ bindings, ∃ stem, IsStem stem ∧
      binding.identifier.toList = wrap callee stem)
    (absent : ∀ binding ∈ bindings, ¬ callee <:+: binding.literal.toList) :
    Unopened callee before (Hoisted.imports bindings) := by
  induction bindings generalizing before with
  | nil => exact unopened_of_not_mem List.not_mem_nil
  | cons binding bindings ih =>
    obtain ⟨⟨stem, isStem, shape⟩, stems⟩ := List.forall_mem_cons.1 stems
    obtain ⟨here, absent⟩ := List.forall_mem_cons.1 absent
    have words : '(' ∉ "import ".toList ++ binding.identifier.toList ++ " from ".toList := by
      have name := not_mem_wrap plain isStem
      rw [← shape] at name
      simp [name]
    have space : (before ++ ("import ".toList ++ binding.identifier.toList ++
        " from ".toList)).getLast?.any isIdentifierChar = false := by
      rw [← List.append_assoc, List.getLast?_append]
      rfl
    rw [imports_cons]
    refine .append (.append (.append (unopened_of_not_mem words) ?_) ?_) (ih stems absent)
    · exact (sealed_of_separate plain space).unopened here
    · exact unopened_of_not_mem (by decide)

/-- Gaps without the callee and names open no call. -/
theorem unopened_written (plain : ∀ c ∈ callee, isIdentifierChar c = true)
    {name : String → String} {occurrences : List Occurrence}
    (isSealed : Sealed callee before)
    (stems : ∀ occurrence ∈ occurrences, ∃ stem, IsStem stem ∧
      (name (String.ofList occurrence.site.literal)).toList = wrap callee stem)
    (absent : ∀ occurrence ∈ occurrences, ¬ callee <:+: occurrence.gap)
    (last : ¬ callee <:+: tail) :
    Unopened callee before (written name occurrences ++ tail) := by
  induction occurrences generalizing before with
  | nil => exact isSealed.unopened last
  | cons occurrence occurrences ih =>
    obtain ⟨⟨stem, isStem, shape⟩, stems⟩ := List.forall_mem_cons.1 stems
    obtain ⟨here, absent⟩ := List.forall_mem_cons.1 absent
    rw [written_cons, shape, List.append_assoc, List.append_assoc]
    refine .append (isSealed.unopened here)
      (.append (unopened_of_not_mem (not_mem_wrap plain isStem)) ?_)
    exact ih (sealed_wrap plain isStem _) stems absent

/-! ### Clean sources -/

/-- Every occurrence of the callee in a source is the beginning of a call site. -/
def IsClean (callee source : String) : Prop :=
  ∀ before after, source.toList = before ++ callee.toList ++ after →
    ∃ site ∈ (Scanner.start callee source).sites, site.start = byteLength before

/-- **Where every occurrence of the callee is the beginning of a call site**, the callee stands in
no gap and in no literal. -/
theorem Leftmost.free {occurrences : List Occurrence} (nonempty : callee ≠ [])
    (leftmost : Leftmost callee before text occurrences tail)
    (clean : ∀ first last, text = first ++ callee ++ last →
      ∃ site ∈ occurrences.map Occurrence.site, site.start = byteLength (before ++ first)) :
    (∀ occurrence ∈ occurrences,
      ¬ callee <:+: occurrence.gap ∧ ¬ callee <:+: occurrence.site.literal) ∧
      ¬ callee <:+: tail := by
  have positive := byteLength_pos nonempty
  induction leftmost with
  | @done before tail uncalled =>
    refine ⟨by simp, fun ⟨first, last, whole⟩ => ?_⟩
    obtain ⟨site, member, -⟩ := clean first last whole.symm
    exact absurd member List.not_mem_nil
  | @site before gap literal rest tail occurrences uncalled called later ih =>
    -- a call site begins where the gap ends, or not before the first call ends
    have starts : ∀ first last, gap ++ callText callee literal ++ rest = first ++ callee ++ last →
        byteLength first = byteLength gap ∨
          byteLength gap + (byteLength callee + byteLength literal + 2) ≤ byteLength first := by
      intro first last whole
      obtain ⟨site, member, start⟩ := clean first last whole
      rw [byteLength_append] at start
      rcases List.mem_cons.1 member with rfl | member
      · simp only [Cursor.site, Cursor.between, byteLength_append] at start
        omega
      · have bound := (later.spans site member).2
        rw [byteLength_append, byteLength_append, byteLength_callText] at bound
        omega
    have inGap : ¬ callee <:+: gap := by
      rintro ⟨first, last, rfl⟩
      have place := starts first (last ++ callText callee literal ++ rest) (by simp)
      simp only [byteLength_append] at place
      omega
    have inLiteral : ¬ callee <:+: literal := by
      rintro ⟨first, last, rfl⟩
      have place := starts (gap ++ callee ++ '(' :: first) (last ++ ')' :: rest)
        (by simp [callText])
      simp only [byteLength_append, byteLength_cons] at place
      have parenthesis : '('.utf8Size = 1 := rfl
      omega
    obtain ⟨others, last⟩ := ih fun first last whole => by
      obtain ⟨site, member, start⟩ := clean (gap ++ callText callee literal ++ first) last (by
        rw [whole]
        simp)
      rcases List.mem_cons.1 member with rfl | member
      · simp only [Cursor.site, Cursor.between, byteLength_append, byteLength_callText] at start
        omega
      · exact ⟨site, member, by rw [start]; simp⟩
    exact ⟨List.forall_mem_cons.2 ⟨⟨inGap, inLiteral⟩, others⟩, last⟩

/-- The bound literals of a source are those of its call sites. -/
theorem exists_site_of_binding {callee source : String} {binding : Binding}
    (member : binding ∈ (hoist callee source).bindings) :
    ∃ occurrence ∈ (Scanner.start callee source).split.1,
      binding.literal.toList = occurrence.site.literal := by
  rw [hoist_bindings_eq_map] at member
  obtain ⟨literal, among, rfl⟩ := List.mem_map.1 member
  obtain ⟨site, isSite, rfl⟩ := List.mem_map.1 (List.mem_eraseDups.1 among)
  obtain ⟨occurrence, found, rfl⟩ := List.mem_map.1 isSite
  exact ⟨occurrence, found, String.toList_ofList⟩

/-- The code of a source without the callee in its gaps and literals opens no call. -/
theorem unopened_hoist {callee source : String}
    (plain : ∀ c ∈ callee.toList, isIdentifierChar c = true)
    (free : ∀ occurrence ∈ (Scanner.start callee source).split.1,
      ¬ callee.toList <:+: occurrence.gap ∧ ¬ callee.toList <:+: occurrence.site.literal)
    (last : ¬ callee.toList <:+: (Scanner.start callee source).split.2) :
    Unopened callee.toList [] (hoist callee source).code.toList := by
  have named := named_bindings callee source
  rw [hoist_code]
  refine .append (unopened_imports plain named.stems fun binding member => ?_) ?_
  · obtain ⟨occurrence, among, literal⟩ := exists_site_of_binding member
    exact literal ▸ (free occurrence among).2
  · refine unopened_written plain (sealed_of_separate plain (imports_separate _)) ?_
      (fun occurrence member => (free occurrence member).1) last
    intro occurrence member
    obtain ⟨stem, isStem, shape⟩ := named.stems _ (mem_hoist_bindings member)
    exact ⟨stem, isStem, shape⟩

/-- **Hoisting a clean source is complete.** Let the callee be made of ASCII letters, digits, `_`
and `$`, and let each of its occurrences in the source be the beginning of a call site. Then it
stands in no literal and in no other text, no call begins at any place of the hoisted code, and
hoisting that code once more finds no call site and returns it as it is. -/
theorem hoist_of_clean (callee source : String) (nonempty : callee ≠ "")
    (plain : ∀ c ∈ callee.toList, isIdentifierChar c = true) (clean : IsClean callee source) :
    let split := (Scanner.start callee source).split
    let code := (hoist callee source).code
    ((∀ occurrence ∈ split.1, ¬ callee.toList <:+: occurrence.gap ∧
        ¬ callee.toList <:+: occurrence.site.literal) ∧ ¬ callee.toList <:+: split.2) ∧
      (∀ before rest, code.toList = before ++ rest →
        (Cursor.between before rest).call? callee.toList = none) ∧
      (Scanner.start callee code).sites = [] ∧
      hoist callee code = { code, bindings := [], callSites := 0 } := by
  intro split code
  have word : callee.toList ≠ [] := fun empty => nonempty (String.toList_eq_nil_iff.1 empty)
  have free := (start_leftmost nonempty source).free word clean
  have unopened : Unopened callee.toList [] code.toList := unopened_hoist plain free.1 free.2
  have none : (Scanner.start callee code).sites = [] := unopened.sites_eq_nil nonempty
  refine ⟨free, fun before rest whole => ?_, none, hoist_of_sites_eq_nil none⟩
  rw [whole] at unopened
  exact unopened.call?_eq_none

/-- The callee is also a word of the import declarations, and the second name, a numbered one,
stands right behind an opening parenthesis. -/
theorem hoist_of_clean_from :
    "from" ≠ "" ∧ (∀ c ∈ "from".toList, isIdentifierChar c = true) ∧
      IsClean "from" "from('x')(from(\"x\"))" ∧
      hoist "from" (hoist "from" "from('x')(from(\"x\"))").code =
        { code := (hoist "from" "from('x')(from(\"x\"))").code
          bindings := []
          callSites := 0 } := by
  have nonempty : "from" ≠ "" := by decide
  have plain : ∀ c ∈ "from".toList, isIdentifierChar c = true := List.all_eq_true.1 (by decide)
  have sites : (Scanner.start "from" "from('x')(from(\"x\"))").sites =
      [⟨0, 9, ['\x27', 'x', '\x27']⟩, ⟨10, 19, ['"', 'x', '"']⟩] := by
    have first : (Cursor.between [] "from('x')(from(\"x\"))".toList).call? "from".toList =
      some (['\x27', 'x', '\x27'], "(from(\"x\"))".toList) := by decide +kernel
    have second : (Cursor.between "from('x')(".toList "from(\"x\"))".toList).call? "from".toList =
      some (['"', 'x', '"'], [')']) := by decide +kernel
    refine (start_leftmost nonempty _).sites_eq.trans ((plainSites_of_call first).trans ?_)
    refine congrArg _ ((plainSites_of_uncalled (by decide +kernel)).trans ?_)
    refine (plainSites_of_call second).trans (congrArg _ ?_)
    exact (plainSites_of_uncalled (by decide +kernel)).trans plainSites_nil
  have clean : IsClean "from" "from('x')(from(\"x\"))" := by
    intro before after whole
    have places : ∀ n < 21, "from".toList <+: "from('x')(from(\"x\"))".toList.drop n →
      n = 0 ∨ n = 10 := by decide +kernel
    have short : before.length < 21 := by
      have length := congrArg List.length whole
      have all : "from('x')(from(\"x\"))".toList.length = 20 := by decide +kernel
      rw [all, List.length_append, List.length_append] at length
      omega
    rw [List.append_assoc] at whole
    have begins : before = "from('x')(from(\"x\"))".toList.take before.length := by
      rw [whole, List.take_left]
    rw [sites]
    rcases places _ short ⟨after, by rw [whole, List.drop_left]⟩ with zero | ten
    · rw [zero] at begins
      exact ⟨_, List.mem_cons_self, by rw [begins]; rfl⟩
    · rw [ten] at begins
      exact ⟨_, List.mem_cons_of_mem _ List.mem_cons_self, by rw [begins]; decide +kernel⟩
  exact ⟨nonempty, plain, clean, (hoist_of_clean _ _ nonempty plain clean).2.2.2⟩

end RenderLink
