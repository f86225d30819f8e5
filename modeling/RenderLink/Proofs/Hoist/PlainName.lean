/-
**Which literals keep their plain name.**

A new literal gets its plain name if that is free, and otherwise the first free numbered one. The
numbered names of a core stand among the plain ones: they are the plain names of the core with an
underscore and the number behind it. So a literal whose core is new loses its plain name exactly if
a literal of the shorter core was given that number before.

* `numberedName_eq_plainName_iff`: when a numbered name is a plain one.
* `Named.resolve`, `Named.resolveAll`: every entry of a table has the first free name.
* `hoist_plainName_iff`: **which literals of a source keep their plain name.**
-/

import RenderLink.Proofs.Hoist.NameSearch
import RenderLink.Proofs.Hoist.Replacement
import Mathlib.Data.List.Induction

namespace RenderLink.BindingTable

open Identifier

variable {callee literal other : String} {table : BindingTable} {taken : List String}
  {list before : List Binding} {binding : Binding}

/-! ### Plain and numbered names -/

/-- The core of a literal. -/
def coreOf (literal : String) : List Char := sanitize literal.toList

theorem plainName_eq_iff :
    plainName callee literal = plainName callee other ↔ coreOf literal = coreOf other := by
  unfold plainName synthesize
  rw [String.ofList_inj, wrap_inj]
  rfl

/-- **A numbered name** is the plain name of a core with that number behind it. -/
theorem numberedName_eq_plainName_iff {n : Nat} :
    numberedName callee literal n = plainName callee other ↔
      coreOf other = coreOf literal ++ '_' :: Nat.toDigits 10 n := by
  unfold numberedName plainName synthesizeNth synthesize
  rw [String.ofList_inj, wrap_inj]
  exact eq_comm

/-! ### The first free name -/

/-- The first name of a literal that is free: the plain one, or the one with the least number from
two up. -/
inductive IsFirstFree (callee : String) (taken : List String) (literal : String) : String → Prop
  | plain (free : plainName callee literal ∉ taken) :
      IsFirstFree callee taken literal (plainName callee literal)
  | numbered (n : Nat) (fromTwo : 2 ≤ n) (used : plainName callee literal ∈ taken)
      (passed : ∀ m, 2 ≤ m → m < n → numberedName callee literal m ∈ taken)
      (free : numberedName callee literal n ∉ taken) :
      IsFirstFree callee taken literal (numberedName callee literal n)

theorem IsFirstFree.unique {first second : String}
    (isFirst : IsFirstFree callee taken literal first)
    (isSecond : IsFirstFree callee taken literal second) : first = second := by
  cases isFirst with
  | plain free =>
    cases isSecond with
    | plain _ => rfl
    | numbered _ _ used _ _ => exact absurd used free
  | numbered n fromTwo used passed free =>
    cases isSecond with
    | plain unused => exact absurd used unused
    | numbered m fromTwo' _ passed' free' =>
      rcases Nat.lt_trichotomy n m with below | rfl | above
      · exact absurd (passed' n fromTwo below) free
      · rfl
      · exact absurd (passed m fromTwo' above) free'

theorem IsFirstFree.eq_plainName_iff {name : String}
    (isFirst : IsFirstFree callee taken literal name) :
    name = plainName callee literal ↔ plainName callee literal ∉ taken := by
  cases isFirst with
  | plain free => exact iff_of_true rfl free
  | numbered n _ used _ _ => exact iff_of_false numberedName_ne_plainName (not_not_intro used)

theorem IsFirstFree.exists_number {name : String} (isFirst : IsFirstFree callee taken literal name)
    (notPlain : name ≠ plainName callee literal) :
    ∃ n, 2 ≤ n ∧ name = numberedName callee literal n := by
  cases isFirst with
  | plain _ => exact absurd rfl notPlain
  | numbered n fromTwo _ _ _ => exact ⟨n, fromTwo, rfl⟩

/-- A new literal gets the first free name. -/
theorem Consistent.isFirstFree (consistent : table.Consistent) (callee literal : String) :
    IsFirstFree callee (table.entries.toList.map Binding.identifier) literal
      (table.freshIdentifier callee literal) := by
  have taken_iff (name : String) :
      name ∈ table.taken ↔ name ∈ table.entries.toList.map Binding.identifier := by
    rw [consistent.names]
    simp
  obtain ⟨rounds, search⟩ := exists_searches table callee literal
  obtain ⟨plain, numbered⟩ := search.least
  by_cases used : plainName callee literal ∈ table.taken
  · obtain ⟨n, fromTwo, same, free, passed⟩ := numbered used
    rw [same] at free ⊢
    exact .numbered n fromTwo ((taken_iff _).mp used)
      (fun m low below => (taken_iff _).mp (passed m low below)) (mt (taken_iff _).mpr free)
  · rw [plain used]
    exact .plain (mt (taken_iff _).mpr used)

/-! ### Tables -/

/-- Each binding of a list has the first name that those before it leave free. -/
def Named (callee : String) (list : List Binding) : Prop :=
  ∀ before binding, before ++ [binding] <+: list →
    IsFirstFree callee (before.map Binding.identifier) binding.literal binding.identifier

theorem named_concat_iff : Named callee (list ++ [binding]) ↔ Named callee list ∧
    IsFirstFree callee (list.map Binding.identifier) binding.literal binding.identifier := by
  unfold Named
  constructor
  · intro named
    exact ⟨fun before other inside => named before other (inside.trans (List.prefix_append _ _)),
      named list binding List.prefix_rfl⟩
  · rintro ⟨named, last⟩ before other inside
    rcases List.prefix_concat_iff.mp inside with whole | inside
    · obtain ⟨rfl, same⟩ := List.append_inj' whole rfl
      obtain rfl : other = binding := List.singleton_inj.mp same
      exact last
    · exact named before other inside

theorem named_nil : Named callee [] := by
  intro before binding inside
  have none : before ++ [binding] = [] := List.prefix_nil.mp inside
  simp at none

/-- The names are determined by the literals in their order. -/
theorem Named.unique {others : List Binding} (named : Named callee list)
    (alsoNamed : Named callee others)
    (same : list.map Binding.literal = others.map Binding.literal) : list = others := by
  induction list using List.reverseRecOn generalizing others with
  | nil => exact (List.map_eq_nil_iff.mp same.symm).symm
  | append_singleton list last ih =>
    cases others using List.reverseRecOn with
    | nil => exact absurd (congrArg List.length same) (by simp)
    | append_singleton front other _ =>
      rw [named_concat_iff] at named alsoNamed
      rw [List.map_append, List.map_append] at same
      obtain ⟨sameFront, sameLast⟩ := List.append_inj' same rfl
      obtain rfl := ih named.1 alsoNamed.1 sameFront
      obtain ⟨literal, name⟩ := last
      obtain ⟨literal', name'⟩ := other
      obtain rfl : literal = literal' := List.singleton_inj.mp sameLast
      obtain rfl : name = name' := named.2.unique alsoNamed.2
      rfl

/-- A question keeps the names of a table the first free ones. -/
theorem Named.resolve (named : Named callee table.entries.toList) (consistent : table.Consistent)
    (literal : String) : Named callee (table.resolve callee literal).2.entries.toList := by
  cases found : table.find? literal with
  | some known =>
    rw [resolve_of_find? callee found]
    exact named
  | none =>
    rw [resolve_of_find?_eq_none callee found]
    unfold BindingTable.insert
    rw [Array.toList_push, named_concat_iff]
    exact ⟨named, consistent.isFirstFree callee literal⟩

/-- **Questions about one callee** keep the names of a table the first free ones. -/
theorem Named.resolveAll {questions : List (String × String)}
    (named : Named callee table.entries.toList) (consistent : table.Consistent)
    (ofCallee : ∀ question ∈ questions, question.1 = callee) :
    Named callee (table.resolveAll questions).2.entries.toList := by
  induction questions generalizing table with
  | nil => exact named
  | cons question questions ih =>
    obtain ⟨here, later⟩ := List.forall_mem_cons.mp ofCallee
    obtain ⟨asked, literal⟩ := question
    subst here
    exact ih (named.resolve consistent literal) (consistent.resolve _ literal) later

/-- Where all cores are different, all names are plain. -/
theorem Named.plain_of_nodup (named : Named callee list)
    (apart : (list.map fun binding => coreOf binding.literal).Nodup) :
    ∀ binding ∈ list, binding.identifier = plainName callee binding.literal := by
  induction list using List.reverseRecOn with
  | nil => simp
  | append_singleton list last ih =>
    rw [named_concat_iff] at named
    rw [List.map_append, List.nodup_append] at apart
    have plain := ih named.1 apart.1
    refine List.forall_mem_append.mpr ⟨plain, List.forall_mem_singleton.mpr ?_⟩
    rw [named.2.eq_plainName_iff]
    intro member
    obtain ⟨earlier, inList, same⟩ := List.mem_map.mp member
    rw [plain earlier inList, plainName_eq_iff] at same
    exact apart.2.2 _ (List.mem_map_of_mem inList) _ List.mem_cons_self same

/-- A literal with a new core loses its plain name exactly if it was given before as a numbered
one. -/
theorem Named.ne_plainName_iff (named : Named callee (before ++ [binding]))
    (new : ∀ earlier ∈ before, coreOf earlier.literal ≠ coreOf binding.literal) :
    binding.identifier ≠ plainName callee binding.literal ↔
      ∃ earlier ∈ before, ∃ n, 2 ≤ n ∧
        earlier.identifier = numberedName callee earlier.literal n ∧
        coreOf binding.literal = coreOf earlier.literal ++ '_' :: Nat.toDigits 10 n := by
  have last := (named_concat_iff.mp named).2
  rw [ne_eq, last.eq_plainName_iff, not_not]
  constructor
  · intro used
    obtain ⟨earlier, member, same⟩ := List.mem_map.mp used
    obtain ⟨front, rest, rfl⟩ := List.append_of_mem member
    have isFirst := named front earlier (by simp)
    -- a plain name would be that of the same core, which is new
    obtain ⟨n, fromTwo, numbered⟩ := isFirst.exists_number fun plain =>
      new earlier member (plainName_eq_iff.mp (plain.symm.trans same))
    rw [numbered] at same
    exact ⟨earlier, member, n, fromTwo, numbered, numberedName_eq_plainName_iff.mp same⟩
  · rintro ⟨earlier, member, n, -, numbered, core⟩
    rw [← numberedName_eq_plainName_iff.mpr core, ← numbered]
    exact List.mem_map_of_mem member

end RenderLink.BindingTable

namespace RenderLink

open BindingTable

/-- The bindings of a source have the first free names. -/
theorem hoist_named (callee source : String) : Named callee (hoist callee source).bindings := by
  rw [hoist_bindings]
  apply Named.resolveAll named_nil consistent_empty
  intro question member
  obtain ⟨occurrence, -, rfl⟩ := List.mem_map.mp member
  rfl

/-- The literals of a source determine its bindings, as names are the first free ones. -/
theorem hoist_bindings_of_named {callee source : String} {list : List Binding}
    (named : Named callee list)
    (literals : firstLiterals (Scanner.start callee source).sites = list.map Binding.literal) :
    (hoist callee source).bindings = list := by
  refine (hoist_named callee source).unique named ?_
  rw [hoist_bindings_eq_map, List.map_map, ← literals]
  exact List.map_id _

/-- **Which literals of a source keep their plain name.** A binding has its plain name exactly if no
binding before it has that name, and otherwise a numbered one. Where its core is new, this is so
exactly unless that name was given before to a shorter core with the number that the core ends in;
where all cores of the source are different, every binding has its plain name. -/
theorem hoist_plainName_iff (callee source : String) (before behind : List Binding)
    (binding : Binding)
    (placed : (hoist callee source).bindings = before ++ binding :: behind) :
    (binding.identifier = plainName callee binding.literal ↔
      ∀ earlier ∈ before, earlier.identifier ≠ plainName callee binding.literal) ∧
    (binding.identifier = plainName callee binding.literal ∨
      ∃ n, 2 ≤ n ∧ binding.identifier = numberedName callee binding.literal n) ∧
    ((∀ earlier ∈ before, coreOf earlier.literal ≠ coreOf binding.literal) →
      (binding.identifier ≠ plainName callee binding.literal ↔
        ∃ earlier ∈ before, ∃ n, 2 ≤ n ∧
          earlier.identifier = numberedName callee earlier.literal n ∧
          coreOf binding.literal = coreOf earlier.literal ++ '_' :: Nat.toDigits 10 n)) ∧
    (((hoist callee source).bindings.map fun other => coreOf other.literal).Nodup →
      binding.identifier = plainName callee binding.literal) := by
  have named := hoist_named callee source
  have inside : before ++ [binding] <+: (hoist callee source).bindings := by
    rw [placed]
    exact ⟨behind, by simp⟩
  have isFirst := named before binding inside
  have upTo : Named callee (before ++ [binding]) := fun front other shorter =>
    named front other (shorter.trans inside)
  refine ⟨?_, ?_, upTo.ne_plainName_iff, fun apart => ?_⟩
  · rw [isFirst.eq_plainName_iff]
    simp
  · by_cases plain : binding.identifier = plainName callee binding.literal
    · exact Or.inl plain
    · exact Or.inr (isFirst.exists_number plain)
  · exact named.plain_of_nodup apart binding (inside.subset (by simp))

/-- Three calls: the second literal has the core of the first one, and its numbered name is the
plain name of the third. -/
def numberedFirst : String := "require(\"a-b\"); require(\"a_b\"); require(\"a_b_2\")"

def numberedFirstBindings : List Binding := [⟨"\"a-b\"", "__$_require_a_b__"⟩,
  ⟨"\"a_b\"", "__$_require_a_b_2__"⟩, ⟨"\"a_b_2\"", "__$_require_a_b_2_2__"⟩]

theorem named_numberedFirstBindings : Named "require" numberedFirstBindings := by
  show Named "require" ((([] ++ [⟨"\"a-b\"", "__$_require_a_b__"⟩]) ++
    [⟨"\"a_b\"", "__$_require_a_b_2__"⟩]) ++ [⟨"\"a_b_2\"", "__$_require_a_b_2_2__"⟩])
  rw [named_concat_iff, named_concat_iff, named_concat_iff]
  refine ⟨⟨⟨named_nil, ?_⟩, ?_⟩, ?_⟩
  · exact .plain (by decide +kernel)
  · exact .numbered 2 le_rfl (by decide +kernel) (by omega) (by decide +kernel)
  · exact .numbered 2 le_rfl (by decide +kernel) (by omega) (by decide +kernel)

theorem hoist_numberedFirst :
    (hoist "require" numberedFirst).bindings = numberedFirstBindings :=
  hoist_bindings_of_named named_numberedFirstBindings (by decide +kernel)

/-- The second literal of this source is numbered. -/
theorem second_name_is_numbered :
    (hoist "require" numberedFirst).bindings = [⟨"\"a-b\"", "__$_require_a_b__"⟩] ++
        ⟨"\"a_b\"", "__$_require_a_b_2__"⟩ :: [⟨"\"a_b_2\"", "__$_require_a_b_2_2__"⟩] ∧
      ∃ n, 2 ≤ n ∧ "__$_require_a_b_2__" = numberedName "require" "\"a_b\"" n :=
  ⟨hoist_numberedFirst, ((hoist_plainName_iff "require" numberedFirst
    [⟨"\"a-b\"", "__$_require_a_b__"⟩] [⟨"\"a_b_2\"", "__$_require_a_b_2_2__"⟩]
    ⟨"\"a_b\"", "__$_require_a_b_2__"⟩ hoist_numberedFirst).2.1).resolve_left
      (by decide +kernel)⟩

/-- **A new core does not keep its plain name:** the third literal of this source is the first one
with its core, and yet it is numbered. -/
theorem plainName_is_taken :
    ∃ before binding, (hoist "require" numberedFirst).bindings = before ++ [binding] ∧
      (∀ earlier ∈ before, coreOf earlier.literal ≠ coreOf binding.literal) ∧
      binding.identifier ≠ plainName "require" binding.literal := by
  refine ⟨_, _, hoist_numberedFirst.trans (List.dropLast_append_getLast (by decide)).symm, ?_, ?_⟩
  · decide +kernel
  · decide +kernel

end RenderLink
