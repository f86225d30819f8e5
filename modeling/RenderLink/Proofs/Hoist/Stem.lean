/-
**The shape of identifiers.**

An identifier is a marker, which all identifiers of a callee share, a stem and two underscores. A
stem never has two underscores next to each other and never ends in one, so the two underscores
behind it are the first ones, and a text that begins with an identifier begins with no other.

* `sanitize_isStem`, `isStem_numbered`: the core of a literal is a stem, with a number or without.
* `eq_of_wrap_begins`: **identifiers are a prefix code.** Of two identifiers of one callee, neither
  begins with the other.
* `synthesizeNth_injective`: different numbers make different identifiers.
-/

import RenderLink.Hoist.Identifier
import Mathlib.Data.List.Chain

namespace RenderLink.Identifier

/-- Whether a character is one of those that identifiers are made of: ASCII letters, digits, the
underscore and the dollar sign. -/
def isIdentifierChar (c : Char) : Bool := c.isAlphanum || c = '_' || c = '$'

/-- What every identifier of a callee begins with. -/
def marker (callee : List Char) : List Char := ['_', '_', '$', '_'] ++ callee ++ ['_']

/-- A text of letters, digits and single underscores. -/
structure IsSpaced (text : List Char) : Prop where
  characters : ∀ c ∈ text, c.isAlphanum = true ∨ c = '_'
  /-- No two underscores stand next to each other. -/
  separated : text.IsChain fun first second => first ≠ '_' ∨ second ≠ '_'

/-- What stands in an identifier between its marker and the two underscores at its end. -/
structure IsStem (stem : List Char) : Prop extends IsSpaced stem where
  closed : stem.getLast? ≠ some '_'

theorem wrap_eq (callee stem : List Char) :
    wrap callee stem = marker callee ++ stem ++ ['_', '_'] := by
  simp [wrap, marker]

theorem wrap_inj {callee first second : List Char} :
    wrap callee first = wrap callee second ↔ first = second := by
  simp [wrap_eq]

theorem marker_prefix_wrap (callee stem : List Char) : marker callee <+: wrap callee stem := by
  rw [wrap_eq, List.append_assoc]
  exact List.prefix_append _ _

/-! ### Cores and numbered cores are stems -/

theorem IsSpaced.extendCore {core : List Char} (spaced : IsSpaced core) (c : Char) :
    IsSpaced (extendCore core c) := by
  unfold Identifier.extendCore
  split
  · next alphanumeric =>
    have notUnderscore : c ≠ '_' := by
      rintro rfl
      exact absurd alphanumeric (by decide)
    refine ⟨?_, List.isChain_cons.mpr ⟨fun _ _ => Or.inl notUnderscore, spaced.separated⟩⟩
    intro d member
    rcases List.mem_cons.mp member with rfl | member
    · exact Or.inl alphanumeric
    · exact spaced.characters d member
  · split
    · next behind =>
      refine ⟨?_, List.isChain_cons.mpr ⟨fun d first => Or.inr ?_, spaced.separated⟩⟩
      · intro d member
        rcases List.mem_cons.mp member with rfl | member
        · exact Or.inr rfl
        · exact spaced.characters d member
      · rintro rfl
        exact behind.2 first
    · exact spaced

theorem IsSpaced.foldl_extendCore (literal : List Char) {core : List Char}
    (spaced : IsSpaced core) : IsSpaced (literal.foldl Identifier.extendCore core) := by
  induction literal generalizing core with
  | nil => exact spaced
  | cons c literal ih => exact ih (spaced.extendCore c)

theorem IsSpaced.reverse {text : List Char} (spaced : IsSpaced text) : IsSpaced text.reverse where
  characters c member := spaced.characters c (List.mem_reverse.mp member)
  separated := List.isChain_reverse.mpr (spaced.separated.imp fun _ _ => Or.symm)

theorem IsSpaced.tail {c : Char} {text : List Char} (spaced : IsSpaced (c :: text)) :
    IsSpaced text where
  characters d member := spaced.characters d (List.mem_cons_of_mem _ member)
  separated := spaced.separated.tail

theorem IsSpaced.head?_ne {text : List Char} (spaced : IsSpaced ('_' :: text)) :
    text.head? ≠ some '_' := by
  intro second
  rcases (List.isChain_cons.mp spaced.separated).1 '_' second with different | different
  · exact different rfl
  · exact different rfl

/-- **The core of a literal is a stem.** -/
theorem sanitize_isStem (literal : List Char) : IsStem (sanitize literal) := by
  have spaced : IsSpaced (literal.foldl extendCore []) :=
    IsSpaced.foldl_extendCore literal ⟨by simp, List.isChain_nil⟩
  -- The core is written backwards, so its first character is the last one of the stem.
  generalize written : literal.foldl extendCore [] = core at spaced
  have shape : sanitize literal =
      (if core.head? = some '_' then core.tail else core).reverse := by
    rw [← written]
    rfl
  rw [shape]
  by_cases trailing : core.head? = some '_'
  · obtain ⟨rest, rfl⟩ := List.head?_eq_some_iff.mp trailing
    rw [if_pos trailing, List.tail_cons]
    refine ⟨spaced.tail.reverse, fun last => ?_⟩
    rw [List.getLast?_reverse] at last
    exact spaced.head?_ne last
  · rw [if_neg trailing]
    refine ⟨spaced.reverse, fun last => ?_⟩
    rw [List.getLast?_reverse] at last
    exact trailing last

theorem digit_ne_underscore {c : Char} {n : Nat} (digit : c ∈ Nat.toDigits 10 n) : c ≠ '_' := by
  rintro rfl
  exact Nat.underscore_not_in_toDigits digit

/-- **A stem with a number behind it is a stem.** -/
theorem isStem_numbered {stem : List Char} (isStem : IsStem stem) (n : Nat) :
    IsStem (stem ++ '_' :: Nat.toDigits 10 n) := by
  refine ⟨⟨fun c member => ?_, ?_⟩, fun last => ?_⟩
  · rcases List.mem_append.mp member with member | member
    · exact isStem.characters c member
    · rcases List.mem_cons.mp member with rfl | digit
      · exact Or.inr rfl
      · have digit := Nat.isDigit_of_mem_toDigits (by decide) (by decide) digit
        exact Or.inl (by simp [Char.isAlphanum, digit])
  · have digits : (Nat.toDigits 10 n).IsChain fun first second => first ≠ '_' ∨ second ≠ '_' :=
      (List.pairwise_of_forall_mem_list fun first member _ _ =>
        Or.inl (digit_ne_underscore member)).isChain
    refine List.isChain_append.mpr ⟨isStem.separated, List.isChain_cons.mpr
      ⟨fun c first => Or.inr (digit_ne_underscore (List.mem_of_mem_head? first)), digits⟩, ?_⟩
    intro c last _ _
    refine Or.inl ?_
    rintro rfl
    exact isStem.closed last
  · have member : '_' ∈ Nat.toDigits 10 n := by
      refine List.mem_of_getLast? (a := '_') ?_
      rw [List.getLast?_append, List.getLast?_cons] at last
      simpa [List.getLast?_eq_getLast_of_ne_nil Nat.toDigits_ne_nil] using last
    exact Nat.underscore_not_in_toDigits member

/-- Identifiers of a callee that could stand in an identifier are made of such characters. -/
theorem isIdentifierChar_of_mem_wrap {callee stem : List Char} {c : Char}
    (plain : ∀ c ∈ callee, isIdentifierChar c = true) (isStem : IsStem stem)
    (member : c ∈ wrap callee stem) : isIdentifierChar c = true := by
  simp only [wrap, List.mem_append, List.mem_cons, List.not_mem_nil, or_false] at member
  rcases member with ((opening | inside) | rfl | inside) | closing
  · rcases opening with rfl | rfl | rfl | rfl <;> rfl
  · exact plain c inside
  · rfl
  · rcases isStem.characters c inside with alphanumeric | rfl
    · simp [isIdentifierChar, alphanumeric]
    · rfl
  · rcases closing with rfl | rfl <;> rfl

/-! ### Where a stem ends -/

theorem IsStem.tail {c : Char} {stem : List Char} (isStem : IsStem (c :: stem)) : IsStem stem where
  toIsSpaced := isStem.toIsSpaced.tail
  closed last := isStem.closed (by
    rw [List.getLast?_cons, last]
    rfl)

/-- Two underscores do not begin inside a stem, its last character included. -/
theorem IsStem.not_begin {c : Char} {stem rest rest' : List Char} (isStem : IsStem (c :: stem)) :
    c :: stem ++ '_' :: '_' :: rest ≠ '_' :: '_' :: rest' := by
  intro same
  cases stem with
  | nil =>
    cases same
    exact isStem.closed rfl
  | cons d stem =>
    cases same
    exact isStem.toIsSpaced.head?_ne rfl

/-- **The two underscores behind a stem are the first ones.** -/
theorem stem_unique {first second rest rest' : List Char} (isFirst : IsStem first)
    (isSecond : IsStem second)
    (same : first ++ '_' :: '_' :: rest = second ++ '_' :: '_' :: rest') : first = second := by
  induction first generalizing second with
  | nil =>
    cases second with
    | nil => rfl
    | cons d second => exact absurd same.symm isSecond.not_begin
  | cons c first ih =>
    cases second with
    | nil => exact absurd same isFirst.not_begin
    | cons d second =>
      rw [List.cons_append, List.cons_append, List.cons.injEq] at same
      rw [same.1, ih isFirst.tail isSecond.tail same.2]

/-- **Identifiers are a prefix code.** A text that begins with an identifier begins with no other
identifier of that callee. -/
theorem eq_of_wrap_begins {callee first second rest : List Char} (isFirst : IsStem first)
    (isSecond : IsStem second) (begins : wrap callee first <+: wrap callee second ++ rest) :
    first = second := by
  obtain ⟨rest', same⟩ := begins
  have stems : first ++ '_' :: '_' :: rest' = second ++ '_' :: '_' :: rest := by
    rw [wrap_eq, wrap_eq] at same
    simpa using same
  exact stem_unique isFirst isSecond stems

theorem synthesizeNth_injective (callee literal : List Char) :
    Function.Injective (synthesizeNth callee literal) := by
  intro first second same
  have digits : Nat.toDigits 10 first = Nat.toDigits 10 second := by
    simpa [synthesizeNth, wrap_eq] using same
  rw [← Nat.ofDigitChars_ten_toDigits (n := first), digits, Nat.ofDigitChars_ten_toDigits]

end RenderLink.Identifier
