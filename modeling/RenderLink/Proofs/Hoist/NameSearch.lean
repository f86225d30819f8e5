/-
**The search for a free name.**

The name of a new literal is found by a loop. The name at hand is the plain one at first; while it
is taken, the numbered one with the next number takes its place, from two up. Nothing in the loop
bounds its rounds: it ends because the names that it tries are pairwise different, and every name
that it leaves behind is the identifier of an entry, so it goes round no more often than there are
entries.

* `Searches`: a run of the loop, with its rounds and the name that it ends with.
* `searches_iff`: the loop ends at the first of the names tried that is free.
* `Consistent.rounds_le`: **rounds are no more than entries.**
* `resolve_searches`: **the search for the name of a new literal.**
-/

import RenderLink.Proofs.Hoist.Resolution

namespace RenderLink.BindingTable

open Identifier

/-! ### The loop -/

/-- A run of the loop: from a name at hand and the number for the next one, after some rounds, to
the name that it ends with. -/
inductive Searches (taken : Std.HashSet String) (callee literal : String) :
    String → Nat → Nat → String → Prop
  | ended {name : String} {next : Nat} (free : name ∉ taken) :
      Searches taken callee literal name next 0 name
  | round {name found : String} {next rounds : Nat} (used : name ∈ taken)
      (rest : Searches taken callee literal (numberedName callee literal next) (next + 1)
        rounds found) :
      Searches taken callee literal name next (rounds + 1) found

variable {taken : Std.HashSet String} {callee literal name found other : String}
  {next rounds count : Nat}

/-- The loop takes one course only. -/
theorem Searches.unique (search : Searches taken callee literal name next rounds found)
    (again : Searches taken callee literal name next count other) :
    count = rounds ∧ other = found := by
  induction search generalizing count with
  | ended free =>
    cases again with
    | ended _ => exact ⟨rfl, rfl⟩
    | round used _ => exact absurd used free
  | round used _ ih =>
    cases again with
    | ended free => exact absurd used free
    | round _ rest =>
      obtain ⟨rfl, same⟩ := ih rest
      exact ⟨rfl, same⟩

/-! ### The names tried -/

theorem numberedName_ne_plainName {n : Nat} :
    numberedName callee literal n ≠ plainName callee literal := by
  unfold numberedName plainName synthesizeNth synthesize
  rw [ne_eq, String.ofList_inj, wrap_inj]
  simp

/-- The names that the loop tries one after another. -/
def triedName (callee literal : String) : Nat → String
  | 0 => plainName callee literal
  | before + 1 => numberedName callee literal (before + 2)

/-- **The names tried are pairwise different:** the numbers are, and no numbered name of a literal
is its plain one. -/
theorem triedName_injective (callee literal : String) :
    Function.Injective (triedName callee literal) := by
  intro first second same
  cases first with
  | zero =>
    cases second with
    | zero => rfl
    | succ second => exact absurd same.symm numberedName_ne_plainName
  | succ first =>
    cases second with
    | zero => exact absurd same numberedName_ne_plainName
    | succ second =>
      have numbers : first + 2 = second + 2 := numberedName_injective callee literal same
      omega

/-- The loop ends at the first of the names tried that is free. -/
theorem searches_triedName_iff {before : Nat} :
    Searches taken callee literal (triedName callee literal before) (before + 2) rounds found ↔
      found = triedName callee literal (before + rounds) ∧ found ∉ taken ∧
        ∀ passed < rounds, triedName callee literal (before + passed) ∈ taken := by
  induction rounds generalizing before with
  | zero =>
    constructor
    · rintro ⟨free⟩
      exact ⟨rfl, free, by simp⟩
    · rintro ⟨rfl, free, -⟩
      exact .ended free
  | succ rounds ih =>
    have shift : ∀ passed, before + 1 + passed = before + (passed + 1) := by omega
    have later := @ih (before + 1)
    simp only [shift] at later
    constructor
    · rintro (_ | ⟨used, rest⟩)
      obtain ⟨last, free, passed⟩ := later.mp rest
      refine ⟨last, free, fun earlier below => ?_⟩
      cases earlier with
      | zero => exact used
      | succ earlier => exact passed earlier (by omega)
    · rintro ⟨last, free, passed⟩
      exact .round (passed 0 (by omega))
        (later.mpr ⟨last, free, fun earlier below => passed (earlier + 1) (by omega)⟩)

/-- The loop from its start. -/
theorem searches_iff :
    Searches taken callee literal (plainName callee literal) 2 rounds found ↔
      found = triedName callee literal rounds ∧ found ∉ taken ∧
        ∀ passed < rounds, triedName callee literal passed ∈ taken := by
  have start := @searches_triedName_iff taken callee literal found rounds 0
  simp only [Nat.zero_add] at start
  exact start

/-! ### The search in a table -/

variable {table : BindingTable}

/-- As many names are taken as there are entries. -/
theorem Consistent.size_taken (consistent : table.Consistent) :
    table.taken.size = table.entries.size := by
  have distinct : table.taken.toList.Nodup :=
    Std.HashSet.distinct_toList.imp fun different => by simpa using different
  have same : table.taken.toList.Perm (table.entries.toList.map Binding.identifier) := by
    rw [List.perm_ext_iff_of_nodup distinct consistent.identifiers]
    intro name
    rw [Std.HashSet.mem_toList, consistent.names]
    simp
  have lengths := same.length_eq
  rwa [Std.HashSet.length_toList, List.length_map, Array.length_toList] at lengths

/-- **Rounds are no more than entries.** -/
theorem Consistent.rounds_le (consistent : table.Consistent)
    (search : Searches table.taken callee literal (plainName callee literal) 2 rounds found) :
    rounds ≤ table.entries.size := by
  obtain ⟨-, -, passed⟩ := searches_iff.mp search
  rw [← consistent.size_taken]
  apply count_le_size (triedName_injective callee literal) (n := 0)
  intro earlier below
  rw [Nat.zero_add]
  exact passed earlier below

/-- The loop ends, and with the identifier of a new literal. -/
theorem exists_searches (table : BindingTable) (callee literal : String) :
    ∃ rounds, Searches table.taken callee literal (plainName callee literal) 2 rounds
      (table.freshIdentifier callee literal) := by
  have fresh := freshIdentifier_not_mem table callee literal
  rw [freshIdentifier_eq_ite] at fresh ⊢
  split at fresh
  · next used =>
    rw [if_pos used]
    obtain ⟨count, -, found, passed, -⟩ :=
      firstFree_eq table.taken (numberedName callee literal) 2 table.taken.size
    refine ⟨count + 1, searches_iff.mpr ⟨?_, fresh, fun tried below => ?_⟩⟩
    · rw [found, Nat.add_comm]
      rfl
    · cases tried with
      | zero => exact Std.HashSet.mem_iff_contains.mpr used
      | succ tried =>
        have member := passed tried (by omega)
        rwa [Nat.add_comm] at member
  · next unused =>
    rw [if_neg unused]
    exact ⟨0, .ended fresh⟩

/-- The loop ends with the plain name if that is free, and else with the least free number. -/
theorem Searches.least
    (search : Searches taken callee literal (plainName callee literal) 2 rounds found) :
    (plainName callee literal ∉ taken → found = plainName callee literal) ∧
      (plainName callee literal ∈ taken → ∃ n, 2 ≤ n ∧ found = numberedName callee literal n ∧
        found ∉ taken ∧ ∀ m, 2 ≤ m → m < n → numberedName callee literal m ∈ taken) := by
  obtain ⟨last, free, passed⟩ := searches_iff.mp search
  cases rounds with
  | zero =>
    have plain : found = plainName callee literal := last
    exact ⟨fun _ => plain, fun used => absurd used (plain ▸ free)⟩
  | succ rounds =>
    have used : plainName callee literal ∈ taken := passed 0 (Nat.succ_pos rounds)
    refine ⟨fun unused => absurd used unused,
      fun _ => ⟨rounds + 2, by omega, last, free, fun m fromTwo below => ?_⟩⟩
    have member := passed (m - 2 + 1) (by omega)
    rwa [triedName, Nat.sub_add_cancel fromTwo] at member

/-- **The search for the name of a new literal.** In a table that questions have filled, whatever
callees they were about, the loop for a literal that is new takes one course. Its rounds are no more
than the identifiers that are bound, and it ends with the identifier that the literal gets. This is
the plain name if that is free, and otherwise the one with the least number from two up that is
free. -/
theorem resolve_searches (questions : List (String × String)) (callee literal : String)
    (new : ∀ binding ∈ (resolveAll .empty questions).2.entries, binding.literal ≠ literal) :
    let table := (resolveAll .empty questions).2
    let name := (table.resolve callee literal).1
    (∃ rounds ≤ table.entries.size, ∀ count found,
      Searches table.taken callee literal (plainName callee literal) 2 count found ↔
        count = rounds ∧ found = name) ∧
      (plainName callee literal ∉ table.taken → name = plainName callee literal) ∧
      (plainName callee literal ∈ table.taken → ∃ n, 2 ≤ n ∧
        name = numberedName callee literal n ∧ name ∉ table.taken ∧
        ∀ m, 2 ≤ m → m < n → numberedName callee literal m ∈ table.taken) := by
  intro table name
  have consistent : table.Consistent := consistent_empty.resolveAll questions
  obtain ⟨rounds, search⟩ := exists_searches table callee literal
  have fresh : name = table.freshIdentifier callee literal :=
    congrArg Prod.fst (resolve_of_find?_eq_none callee (consistent.find?_eq_none_iff.mpr new))
  rw [← fresh] at search
  refine ⟨⟨rounds, consistent.rounds_le search, fun count found => ?_⟩, search.least⟩
  constructor
  · exact search.unique
  · rintro ⟨rfl, rfl⟩
    exact search

/-- Two literals whose plain names are the first two that are tried for a third one. -/
def twoTaken : List (String × String) := [("require", "\"a_2\""), ("require", "'a'")]

theorem entries_twoTaken : (resolveAll .empty twoTaken).2.entries =
    #[⟨"\"a_2\"", "__$_require_a_2__"⟩, ⟨"'a'", "__$_require_a__"⟩] := by
  have first : plainName "require" "\"a_2\"" = "__$_require_a_2__" := by decide +kernel
  have second : plainName "require" "'a'" = "__$_require_a__" := by decide +kernel
  simp [twoTaken, resolveAll, resolve, find?, insert, freshIdentifier_eq_ite, empty, first, second]

/-- The search makes two rounds in a table of two entries and ends with the number three. -/
theorem search_of_two_rounds :
    let table := (resolveAll .empty twoTaken).2
    table.entries.size = 2 ∧ (∀ binding ∈ table.entries, binding.literal ≠ "\"a\"") ∧
      Searches table.taken "require" "\"a\"" "__$_require_a__" 2 2 "__$_require_a_3__" ∧
      (table.resolve "require" "\"a\"").1 = "__$_require_a_3__" := by
  intro table
  have new : ∀ binding ∈ table.entries, binding.literal ≠ "\"a\"" := by
    rw [entries_twoTaken]
    decide
  have names (name : String) : name ∈ table.taken ↔
      name ∈ ["__$_require_a_2__", "__$_require_a__"] := by
    rw [(consistent_empty.resolveAll twoTaken).names, entries_twoTaken]
    simp [eq_comm]
  have search : Searches table.taken "require" "\"a\"" "__$_require_a__" 2 2
      "__$_require_a_3__" := by
    refine .round ((names _).mpr (by decide)) ?_
    have second : numberedName "require" "\"a\"" 2 = "__$_require_a_2__" := by decide +kernel
    have third : numberedName "require" "\"a\"" 3 = "__$_require_a_3__" := by decide +kernel
    rw [second]
    refine .round ((names _).mpr (by decide)) ?_
    rw [third]
    exact .ended (mt (names _).mp (by decide))
  obtain ⟨⟨rounds, -, course⟩, -⟩ := resolve_searches twoTaken "require" "\"a\"" new
  have plain : plainName "require" "\"a\"" = "__$_require_a__" := by decide +kernel
  rw [plain] at course
  exact ⟨by rw [entries_twoTaken]; rfl, new, search, ((course 2 _).mp search).2.symm⟩

end RenderLink.BindingTable
