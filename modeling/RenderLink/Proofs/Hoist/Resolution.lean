/-
**Literals and identifiers over a whole run.**

A table of bindings is asked for one literal after another, each time for some callee. The list of
its entries, the index from literals to places and the set of names that are taken say the same
thing after every question (`Consistent`), and an entry stays where it is.

The identifier of a new literal is free (`freshIdentifier_not_mem`): the numbered names of a literal
are pairwise different (`synthesizeNth_injective`), so the taken ones among them are no more than
the entries, and the search tries one more than that.

* `Consistent.resolve`, `prefix_resolve`: what one question keeps.
* `Consistent.resolveAll_answers`: every question is answered with the binding that its literal has
  at the end.
* `resolveAll_identifier_eq_iff`: **one identifier for each literal.** Two questions have the same
  answer exactly if they are about the same literal, whatever was asked before, between and after.
-/

import RenderLink.Hoist.BindingTable
import RenderLink.Proofs.Hoist.Stem
import Mathlib.Data.List.Forall2
import Mathlib.Data.List.Infix
import Mathlib.Data.List.Nodup
import Mathlib.Data.List.Perm.Subperm

namespace RenderLink.BindingTable

open Identifier

/-! ### Free names -/

/-- The search ends at the first free name, or when its tries are used up. -/
theorem firstFree_eq (taken : Std.HashSet String) (name : Nat → String) (n tries : Nat) :
    ∃ k ≤ tries, firstFree taken name n tries = name (n + k) ∧
      (∀ j < k, name (n + j) ∈ taken) ∧ (k < tries → name (n + k) ∉ taken) := by
  induction tries generalizing n with
  | zero => exact ⟨0, le_rfl, rfl, by simp, by simp⟩
  | succ tries ih =>
    rw [firstFree]
    by_cases used : taken.contains (name n) = true
    · rw [if_pos used]
      obtain ⟨k, bounded, found, passed, free⟩ := ih (n + 1)
      have shift : ∀ j, n + 1 + j = n + (j + 1) := by omega
      rw [shift] at found free
      refine ⟨k + 1, by omega, found, fun j below => ?_, fun below => free (by omega)⟩
      cases j with
      | zero => exact Std.HashSet.mem_iff_contains.mpr used
      | succ j =>
        rw [← shift]
        exact passed j (by omega)
    · rw [if_neg used]
      exact ⟨0, by omega, rfl, by simp, fun _ member =>
        used (Std.HashSet.mem_iff_contains.mp member)⟩

/-- Names that are pairwise different and taken are no more than the taken ones. -/
theorem count_le_size {taken : Std.HashSet String} {name : Nat → String}
    (injective : Function.Injective name) {n count : Nat}
    (used : ∀ j < count, name (n + j) ∈ taken) : count ≤ taken.size := by
  have distinct : ((List.range count).map fun j => name (n + j)).Nodup :=
    (List.nodup_range).map fun first second same => by
      have same := injective same
      omega
  have inside : ((List.range count).map fun j => name (n + j)) ⊆ taken.toList := by
    intro found member
    obtain ⟨j, below, rfl⟩ := List.mem_map.mp member
    exact Std.HashSet.mem_toList.mpr (used j (List.mem_range.mp below))
  have short := (List.subperm_of_subset distinct inside).length_le
  rwa [List.length_map, List.length_range, Std.HashSet.length_toList] at short

/-- **As many tries as there are taken names suffice.** -/
theorem firstFree_not_mem {taken : Std.HashSet String} {name : Nat → String}
    (injective : Function.Injective name) (n : Nat) :
    firstFree taken name n taken.size ∉ taken := by
  obtain ⟨k, bounded, found, passed, free⟩ := firstFree_eq taken name n taken.size
  rw [found]
  intro member
  by_cases last : k = taken.size
  · have tooMany : k + 1 ≤ taken.size := count_le_size injective (n := n) fun j below => by
      by_cases same : j = k
      · rw [same]
        exact member
      · exact passed j (by omega)
    omega
  · exact free (by omega) member

/-- The identifier of a literal without a number. -/
def plainName (callee literal : String) : String :=
  String.ofList (synthesize callee.toList literal.toList)

/-- The identifier of a literal with a number. -/
def numberedName (callee literal : String) (n : Nat) : String :=
  String.ofList (synthesizeNth callee.toList literal.toList n)

theorem freshIdentifier_eq_ite (table : BindingTable) (callee literal : String) :
    table.freshIdentifier callee literal =
      if table.taken.contains (plainName callee literal) then
        firstFree table.taken (numberedName callee literal) 2 table.taken.size
      else plainName callee literal := rfl

theorem numberedName_injective (callee literal : String) :
    Function.Injective (numberedName callee literal) := fun _ _ same =>
  synthesizeNth_injective _ _ (String.ofList_injective same)

/-- **The identifier of a new literal is free.** -/
theorem freshIdentifier_not_mem (table : BindingTable) (callee literal : String) :
    table.freshIdentifier callee literal ∉ table.taken := by
  rw [freshIdentifier_eq_ite]
  split
  · exact firstFree_not_mem (numberedName_injective callee literal) 2
  · next free => exact fun member => free (Std.HashSet.mem_iff_contains.mp member)

theorem freshIdentifier_eq_wrap (table : BindingTable) (callee literal : String) :
    ∃ stem, IsStem stem ∧
      (table.freshIdentifier callee literal).toList = wrap callee.toList stem := by
  have core := sanitize_isStem literal.toList
  rw [freshIdentifier_eq_ite]
  split
  · obtain ⟨k, -, found, -⟩ :=
      firstFree_eq table.taken (numberedName callee literal) 2 table.taken.size
    rw [found, numberedName, String.toList_ofList]
    exact ⟨_, isStem_numbered core _, rfl⟩
  · rw [plainName, String.toList_ofList]
    exact ⟨_, core, rfl⟩

/-! ### One question -/

/-- A table whose entries, index and taken names say the same thing. -/
structure Consistent (table : BindingTable) : Prop where
  /-- The index leads from each literal to the entry that binds it, and to no other place. -/
  index : ∀ literal place, table.byLiteral[literal]? = some place ↔
    table.entries[place]?.map Binding.literal = some literal
  /-- The taken names are the identifiers of the entries. -/
  names : ∀ name, name ∈ table.taken ↔ ∃ binding ∈ table.entries, binding.identifier = name
  /-- No two entries share an identifier. -/
  identifiers : (table.entries.toList.map Binding.identifier).Nodup

theorem consistent_empty : Consistent .empty where
  index literal place := by simp [empty]
  names name := by simp [empty]
  identifiers := by simp [empty]

variable {table : BindingTable}

theorem Consistent.find?_eq_some_iff (consistent : table.Consistent) {literal : String}
    {binding : Binding} :
    table.find? literal = some binding ↔ binding ∈ table.entries ∧ binding.literal = literal := by
  rw [find?, Option.bind_eq_some_iff]
  constructor
  · rintro ⟨place, indexed, entry⟩
    have same := (consistent.index literal place).mp indexed
    rw [entry] at same
    exact ⟨Array.mem_of_getElem? entry, Option.some.inj same⟩
  · rintro ⟨member, rfl⟩
    obtain ⟨place, entry⟩ := Array.getElem?_of_mem member
    refine ⟨place, (consistent.index _ place).mpr ?_, entry⟩
    rw [entry]
    rfl

theorem Consistent.find?_eq_none_iff (consistent : table.Consistent) {literal : String} :
    table.find? literal = none ↔ ∀ binding ∈ table.entries, binding.literal ≠ literal := by
  rw [Option.eq_none_iff_forall_ne_some]
  constructor
  · intro missing binding member same
    exact missing binding (consistent.find?_eq_some_iff.mpr ⟨member, same⟩)
  · intro missing binding found
    obtain ⟨member, same⟩ := consistent.find?_eq_some_iff.mp found
    exact missing binding member same

/-- Adding a literal that no entry binds keeps the three in step. -/
theorem Consistent.insert (consistent : table.Consistent) (callee : String) {literal : String}
    (missing : table.find? literal = none) : (table.insert callee literal).2.Consistent where
  index other place := by
    have unbound := consistent.find?_eq_none_iff.mp missing
    have outside : table.entries[table.entries.size]? = none := by simp
    simp only [BindingTable.insert, Std.HashMap.getElem?_insert, Array.getElem?_push, beq_iff_eq]
    by_cases same : literal = other
    · subst same
      by_cases last : place = table.entries.size
      · simp [last]
      · have elsewhere : ¬ table.entries[place]?.map Binding.literal = some literal := by
          intro bound
          obtain ⟨binding, entry, same⟩ := Option.map_eq_some_iff.mp bound
          exact unbound binding (Array.mem_of_getElem? entry) same
        simp only [if_true, if_neg last, Option.some.injEq, elsewhere, iff_false]
        exact fun size => last size.symm
    · rw [if_neg same, consistent.index]
      by_cases last : place = table.entries.size
      · simp [last, same]
      · rw [if_neg last]
  names name := by
    simp only [BindingTable.insert, Std.HashSet.mem_insert, consistent.names, beq_iff_eq,
      Array.mem_push]
    constructor
    · rintro (fresh | ⟨binding, member, same⟩)
      · exact ⟨_, Or.inr rfl, fresh⟩
      · exact ⟨binding, Or.inl member, same⟩
    · rintro ⟨binding, member | rfl, same⟩
      · exact Or.inr ⟨binding, member, same⟩
      · exact Or.inl same
  identifiers := by
    simp only [BindingTable.insert, Array.toList_push, List.map_append, List.map_cons,
      List.map_nil]
    refine consistent.identifiers.append (List.nodup_singleton _) ?_
    intro name member fresh
    obtain ⟨binding, entry, same⟩ := List.mem_map.mp member
    refine freshIdentifier_not_mem table callee literal ((consistent.names _).mpr
      ⟨binding, Array.mem_toList_iff.mp entry, ?_⟩)
    rw [same]
    exact List.mem_singleton.mp fresh

theorem resolve_of_find?_eq_none {literal : String} (callee : String)
    (missing : table.find? literal = none) :
    table.resolve callee literal = table.insert callee literal := by
  simp [resolve, missing]

theorem Consistent.resolve (consistent : table.Consistent) (callee literal : String) :
    (table.resolve callee literal).2.Consistent := by
  cases found : table.find? literal with
  | some binding =>
    rw [resolve_of_find? callee found]
    exact consistent
  | none =>
    rw [resolve_of_find?_eq_none callee found]
    exact consistent.insert callee found

/-- A question moves no entry. -/
theorem prefix_resolve (table : BindingTable) (callee literal : String) :
    table.entries.toList <+: (table.resolve callee literal).2.entries.toList := by
  cases found : table.find? literal with
  | some binding => rw [resolve_of_find? callee found]
  | none =>
    rw [resolve_of_find?_eq_none callee found]
    simp [insert]

/-- A question is answered with an entry for its literal. -/
theorem Consistent.resolve_mem (consistent : table.Consistent) (callee literal : String) :
    ⟨literal, (table.resolve callee literal).1⟩ ∈ (table.resolve callee literal).2.entries := by
  cases found : table.find? literal with
  | some binding =>
    obtain ⟨member, rfl⟩ := consistent.find?_eq_some_iff.mp found
    rw [resolve_of_find? callee found]
    exact member
  | none =>
    rw [resolve_of_find?_eq_none callee found]
    exact Array.mem_push_self

/-- The identifier of an entry is one of the callee in the question that added it. -/
theorem mem_resolve (callee literal : String) {binding : Binding}
    (member : binding ∈ (table.resolve callee literal).2.entries) :
    binding ∈ table.entries ∨
      ∃ stem, IsStem stem ∧ binding.identifier.toList = wrap callee.toList stem := by
  cases found : table.find? literal with
  | some known =>
    rw [resolve_of_find? callee found] at member
    exact Or.inl member
  | none =>
    rw [resolve_of_find?_eq_none callee found] at member
    rcases Array.mem_push.mp member with member | rfl
    · exact Or.inl member
    · exact Or.inr (freshIdentifier_eq_wrap table callee literal)

theorem Consistent.eq_of_literal_eq (consistent : table.Consistent) {first second : Binding}
    (isFirst : first ∈ table.entries) (isSecond : second ∈ table.entries)
    (same : first.literal = second.literal) : first = second := by
  have found := consistent.find?_eq_some_iff.mpr ⟨isFirst, same⟩
  rw [consistent.find?_eq_some_iff.mpr ⟨isSecond, rfl⟩] at found
  exact (Option.some.inj found).symm

theorem Consistent.eq_of_identifier_eq (consistent : table.Consistent) {first second : Binding}
    (isFirst : first ∈ table.entries) (isSecond : second ∈ table.entries)
    (same : first.identifier = second.identifier) : first = second :=
  List.inj_on_of_nodup_map consistent.identifiers (Array.mem_toList_iff.mpr isFirst)
    (Array.mem_toList_iff.mpr isSecond) same

theorem Consistent.literals (consistent : table.Consistent) :
    (table.entries.toList.map Binding.literal).Nodup := by
  have distinct : table.entries.toList.Nodup := List.Nodup.of_map _ consistent.identifiers
  refine distinct.map_on fun first isFirst second isSecond same => ?_
  exact consistent.eq_of_literal_eq (Array.mem_toList_iff.mp isFirst)
    (Array.mem_toList_iff.mp isSecond) same

/-! ### A run of questions -/

/-- The answers to questions, each about a literal of a callee, and the table behind the last. -/
def resolveAll : BindingTable → List (String × String) → List String × BindingTable
  | table, [] => ([], table)
  | table, (callee, literal) :: questions =>
    let (identifier, next) := table.resolve callee literal
    let (identifiers, final) := resolveAll next questions
    (identifier :: identifiers, final)

theorem resolveAll_append (table : BindingTable) (first second : List (String × String)) :
    (table.resolveAll (first ++ second)).2 = ((table.resolveAll first).2.resolveAll second).2 := by
  induction first generalizing table with
  | nil => rfl
  | cons question first ih => exact ih _

theorem Consistent.resolveAll (consistent : table.Consistent)
    (questions : List (String × String)) : (table.resolveAll questions).2.Consistent := by
  induction questions generalizing table with
  | nil => exact consistent
  | cons question questions ih => exact ih (consistent.resolve question.1 question.2)

theorem prefix_resolveAll (table : BindingTable) (questions : List (String × String)) :
    table.entries.toList <+: (table.resolveAll questions).2.entries.toList := by
  induction questions generalizing table with
  | nil => exact List.prefix_rfl
  | cons question questions ih =>
    exact (prefix_resolve table question.1 question.2).trans (ih _)

theorem mem_resolveAll {questions : List (String × String)} {binding : Binding}
    (member : binding ∈ (table.resolveAll questions).2.entries) :
    binding ∈ table.entries ∨ ∃ question ∈ questions,
      ∃ stem, IsStem stem ∧ binding.identifier.toList = wrap question.1.toList stem := by
  induction questions generalizing table with
  | nil => exact Or.inl member
  | cons question questions ih =>
    rcases ih member with member | ⟨other, asked, shape⟩
    · rcases mem_resolve question.1 question.2 member with member | shape
      · exact Or.inl member
      · exact Or.inr ⟨question, List.mem_cons_self, shape⟩
    · exact Or.inr ⟨other, List.mem_cons_of_mem _ asked, shape⟩

/-- Every question is answered with the binding that its literal has at the end. -/
theorem Consistent.resolveAll_answers (consistent : table.Consistent)
    (questions : List (String × String)) :
    List.Forall₂ (fun question identifier =>
        ⟨question.2, identifier⟩ ∈ (table.resolveAll questions).2.entries)
      questions (table.resolveAll questions).1 := by
  induction questions generalizing table with
  | nil => exact List.Forall₂.nil
  | cons question questions ih =>
    refine List.Forall₂.cons ?_ (ih (consistent.resolve question.1 question.2))
    have answered := consistent.resolve_mem question.1 question.2
    have kept := prefix_resolveAll (table.resolve question.1 question.2).2 questions
    exact Array.mem_toList_iff.mp (kept.subset (Array.mem_toList_iff.mpr answered))

/-- The entries are added in the order in which their literals are first asked for. -/
theorem Consistent.resolveAll_literals (consistent : table.Consistent)
    (questions : List (String × String)) :
    (table.resolveAll questions).2.entries.toList.map Binding.literal =
      table.entries.toList.map Binding.literal ++
        ((questions.map Prod.snd).filter fun literal =>
          literal ∉ table.entries.toList.map Binding.literal).eraseDups := by
  induction questions generalizing table with
  | nil => simp [BindingTable.resolveAll]
  | cons question questions ih =>
    obtain ⟨callee, literal⟩ := question
    refine (ih (consistent.resolve callee literal)).trans ?_
    cases found : table.find? literal with
    | some binding =>
      obtain ⟨member, same⟩ := consistent.find?_eq_some_iff.mp found
      have bound : literal ∈ table.entries.toList.map Binding.literal :=
        List.mem_map.mpr ⟨binding, Array.mem_toList_iff.mpr member, same⟩
      rw [resolve_of_find? callee found, List.map_cons,
        List.filter_cons_of_neg (by simpa using bound)]
    | none =>
      have unbound : literal ∉ table.entries.toList.map Binding.literal := by
        intro bound
        obtain ⟨binding, member, same⟩ := List.mem_map.mp bound
        exact consistent.find?_eq_none_iff.mp found binding (Array.mem_toList_iff.mp member) same
      have grown : (table.insert callee literal).2.entries.toList.map Binding.literal =
          table.entries.toList.map Binding.literal ++ [literal] := by
        simp [BindingTable.insert]
      rw [resolve_of_find?_eq_none callee found, grown, List.map_cons,
        List.filter_cons_of_pos (by simpa using unbound), List.eraseDups_cons, List.filter_filter,
        List.append_assoc, List.singleton_append]
      congr 3
      refine List.filter_congr fun other _ => ?_
      rw [Bool.eq_iff_iff]
      simp [not_or, and_comm]

/-- **One identifier for each literal.** Whatever questions a table without bindings is asked, its
entries bind pairwise different literals to pairwise different identifiers, index and taken names
agree with them, later questions leave them where they are, every answer is the identifier of the
entry for its literal, and two questions have the same answer exactly if they are about the same
literal. -/
theorem resolveAll_identifier_eq_iff (questions : List (String × String)) :
    let answers := (resolveAll .empty questions).1
    let table := (resolveAll .empty questions).2
    (table.entries.toList.map Binding.literal).Nodup ∧
      (table.entries.toList.map Binding.identifier).Nodup ∧
      (∀ literal place, table.byLiteral[literal]? = some place ↔
        table.entries[place]?.map Binding.literal = some literal) ∧
      (∀ name, name ∈ table.taken ↔ name ∈ table.entries.toList.map Binding.identifier) ∧
      (∀ later, table.entries.toList <+:
        (resolveAll .empty (questions ++ later)).2.entries.toList) ∧
      answers.length = questions.length ∧
      (∀ i : Fin questions.length, ∃ binding ∈ table.entries,
        binding.literal = questions[i].2 ∧ answers[i.val]? = some binding.identifier) ∧
      ∀ i j : Fin questions.length,
        answers[i.val]? = answers[j.val]? ↔ questions[i].2 = questions[j].2 := by
  intro answers table
  have consistent : table.Consistent := consistent_empty.resolveAll questions
  have answered := consistent_empty.resolveAll_answers questions
  have bound : ∀ i : Fin questions.length, ∃ identifier,
      answers[i.val]? = some identifier ∧ ⟨questions[i].2, identifier⟩ ∈ table.entries := by
    intro i
    have inside : i.val < answers.length := answered.length_eq ▸ i.isLt
    exact ⟨answers[i.val], List.getElem?_eq_getElem inside, answered.get i.isLt inside⟩
  refine ⟨consistent.literals, consistent.identifiers, consistent.index, fun name => ?_,
    fun later => ?_, answered.length_eq.symm, fun i => ?_, fun i j => ?_⟩
  · rw [consistent.names]
    simp
  · rw [resolveAll_append]
    exact prefix_resolveAll table later
  · obtain ⟨identifier, answer, entry⟩ := bound i
    exact ⟨_, entry, rfl, answer⟩
  · obtain ⟨first, isFirst, firstEntry⟩ := bound i
    obtain ⟨second, isSecond, secondEntry⟩ := bound j
    rw [isFirst, isSecond, Option.some.injEq]
    constructor
    · intro same
      exact congrArg Binding.literal (consistent.eq_of_identifier_eq firstEntry secondEntry same)
    · intro same
      exact congrArg Binding.identifier (consistent.eq_of_literal_eq firstEntry secondEntry same)

end RenderLink.BindingTable
