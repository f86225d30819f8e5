/-
**Hoisting loses nothing.**

The hoisted code, without its import declarations, is read from left to right: where it begins with
a bound identifier that identifier is met and passed over, and else one character is. With the call
of its literal in place of each identifier that is met, the source is back.

Two things could go wrong. At a former call site another identifier could be met than the one that
was written: identifiers of one callee are a prefix code (`eq_of_wrap_begins`). And an identifier
could be met elsewhere: it would begin in copied text, which the marker does not occur in, and so
reach beyond that text into an identifier; but what stands right before a call site is no character
of an identifier, by the look-behind of the search (`bindingAt?_gap`).

* `readNames_body`: the reading meets the identifiers of the call sites, with the gaps between.
* `hoist_recoverable`: **the source is recovered** from the code and the bindings.
-/

import RenderLink.Proofs.Hoist.Replacement
import Mathlib.Data.List.Infix

namespace RenderLink

open Identifier Text

/-! ### Reading hoisted code -/

/-- The first of some bindings whose identifier a text begins with. -/
def bindingAt? (bindings : List Binding) (text : List Char) : Option Binding :=
  bindings.find? fun binding =>
    binding.identifier.toList ≠ [] && binding.identifier.toList.isPrefixOf text

theorem bindingAt?_eq_some {bindings : List Binding} {text : List Char} {binding : Binding}
    (found : bindingAt? bindings text = some binding) :
    binding ∈ bindings ∧ binding.identifier.toList ≠ [] ∧
      binding.identifier.toList <+: text := by
  have begins := List.find?_some found
  rw [Bool.and_eq_true, decide_eq_true_eq, List.isPrefixOf_iff_prefix] at begins
  exact ⟨List.mem_of_find?_eq_some found, begins⟩

/-- What a reader of a text meets: identifiers, each with the text before it, and the text behind
the last one. -/
structure Reading where
  met : List (List Char × Binding)
  tail : List Char

/-- A reading with some text in front. -/
def Reading.behind (gap : List Char) : Reading → Reading
  | ⟨[], tail⟩ => ⟨[], gap ++ tail⟩
  | ⟨(gap', binding) :: met, tail⟩ => ⟨(gap ++ gap', binding) :: met, tail⟩

/-- Reads a text from left to right. An identifier that is met is passed over as a whole. -/
def readNames (bindings : List Binding) (text : List Char) : Reading :=
  match _found : bindingAt? bindings text with
  | some binding =>
    let reading := readNames bindings (text.drop binding.identifier.toList.length)
    { reading with met := ([], binding) :: reading.met }
  | none =>
    match text with
    | [] => ⟨[], []⟩
    | c :: rest => (readNames bindings rest).behind [c]
termination_by text.length
decreasing_by
  · obtain ⟨-, nonempty, begins⟩ := bindingAt?_eq_some _found
    have positive := List.length_pos_iff.mpr nonempty
    have bounded := begins.length_le
    rw [List.length_drop]
    omega
  · simp

/-- The text of a reading with the call of its literal in place of each identifier. -/
def Reading.restore (callee : List Char) (reading : Reading) : List Char :=
  (reading.met.flatMap fun (gap, binding) =>
    gap ++ callText callee binding.literal.toList) ++ reading.tail

/-- The source that hoisted code and its bindings tell of, if the code begins with the import
declarations of the bindings. -/
def recover (callee code : String) (bindings : List Binding) : Option String :=
  (afterWord? (Hoisted.imports bindings) code.toList).map fun body =>
    String.ofList ((readNames bindings body).restore callee.toList)

/-! ### Where identifiers are met -/

theorem Reading.behind_nil (reading : Reading) : reading.behind [] = reading := by
  cases reading with
  | mk met tail => cases met <;> rfl

theorem Reading.behind_behind (first second : List Char) (reading : Reading) :
    (reading.behind second).behind first = reading.behind (first ++ second) := by
  cases reading with
  | mk met tail => cases met <;> simp [Reading.behind]

theorem readNames_nil (bindings : List Binding) : readNames bindings [] = ⟨[], []⟩ := by
  rw [readNames]
  split
  · next found =>
    obtain ⟨-, nonempty, begins⟩ := bindingAt?_eq_some found
    exact absurd (List.prefix_nil.mp begins) nonempty
  · rfl

theorem readNames_of_none {bindings : List Binding} {c : Char} {rest : List Char}
    (unmet : bindingAt? bindings (c :: rest) = none) :
    readNames bindings (c :: rest) = (readNames bindings rest).behind [c] := by
  rw [readNames]
  split
  · next found =>
    rw [unmet] at found
    cases found
  · rfl

theorem readNames_of_some {bindings : List Binding} {binding : Binding} {text rest : List Char}
    (found : bindingAt? bindings text = some binding)
    (whole : text = binding.identifier.toList ++ rest) :
    readNames bindings text =
      { readNames bindings rest with met := ([], binding) :: (readNames bindings rest).met } := by
  rw [readNames]
  split
  · next found' =>
    rw [found] at found'
    cases found'
    rw [whole, List.drop_left]
  · next unmet =>
    rw [found] at unmet
    cases unmet

/-- Bindings whose identifiers are different ones of one callee. -/
structure Named (callee : List Char) (bindings : List Binding) : Prop where
  stems : ∀ binding ∈ bindings, ∃ stem, IsStem stem ∧
    binding.identifier.toList = wrap callee stem
  identifiers : (bindings.map Binding.identifier).Nodup

variable {callee : List Char} {bindings : List Binding}

/-- In copied text no identifier is met: it would have to reach beyond that text. -/
theorem bindingAt?_gap (named : Named callee bindings)
    (plain : ∀ c ∈ callee, isIdentifierChar c = true) {gap after : List Char} (nonempty : gap ≠ [])
    (unmarked : ¬ marker callee <:+: gap)
    (separate : gap.getLast?.any isIdentifierChar = false ∨ after = []) :
    bindingAt? bindings (gap ++ after) = none := by
  cases found : bindingAt? bindings (gap ++ after) with
  | none => rfl
  | some binding =>
    obtain ⟨member, -, begins⟩ := bindingAt?_eq_some found
    obtain ⟨stem, isStem, shape⟩ := named.stems binding member
    rw [shape] at begins
    have absent : ¬ wrap callee stem <:+: gap := fun inside =>
      unmarked ((marker_prefix_wrap callee stem).isInfix.trans inside)
    exact absurd begins (not_begin_of_separate
      (fun c member => isIdentifierChar_of_mem_wrap plain isStem member) nonempty absent separate)

theorem readNames_gap (named : Named callee bindings)
    (plain : ∀ c ∈ callee, isIdentifierChar c = true) {gap after : List Char}
    (unmarked : ¬ marker callee <:+: gap)
    (separate : gap.getLast?.any isIdentifierChar = false ∨ after = []) :
    readNames bindings (gap ++ after) = (readNames bindings after).behind gap := by
  induction gap with
  | nil => exact (Reading.behind_nil _).symm
  | cons c gap ih =>
    have unmet := bindingAt?_gap named plain (List.cons_ne_nil c gap) unmarked separate
    have unmarked' : ¬ marker callee <:+: gap := fun inside =>
      unmarked (inside.trans (List.suffix_cons c gap).isInfix)
    have separate' : gap.getLast?.any isIdentifierChar = false ∨ after = [] := by
      cases gap with
      | nil => exact Or.inl rfl
      | cons d gap => simpa using separate
    have step : readNames bindings (c :: gap ++ after) =
        (readNames bindings (gap ++ after)).behind [c] := readNames_of_none unmet
    rw [step, ih unmarked' separate', Reading.behind_behind]
    rfl

/-- An identifier that was written is met. -/
theorem bindingAt?_identifier (named : Named callee bindings) {binding : Binding}
    (member : binding ∈ bindings) (rest : List Char) :
    bindingAt? bindings (binding.identifier.toList ++ rest) = some binding := by
  obtain ⟨stem, isStem, shape⟩ := named.stems binding member
  have nonempty : binding.identifier.toList ≠ [] := by
    rw [shape]
    exact List.cons_ne_nil _ _
  cases found : bindingAt? bindings (binding.identifier.toList ++ rest) with
  | none =>
    have unmet := List.find?_eq_none.mp found binding member
    simp [nonempty] at unmet
  | some other =>
    obtain ⟨member', -, begins⟩ := bindingAt?_eq_some found
    obtain ⟨stem', isStem', shape'⟩ := named.stems other member'
    rw [shape, shape'] at begins
    have same : other.identifier = binding.identifier := by
      apply String.toList_injective
      rw [shape, shape', eq_of_wrap_begins isStem' isStem begins]
    rw [List.inj_on_of_nodup_map named.identifiers member' member same]

/-! ### Reading the body back -/

theorem continuesName_of_isIdentifierChar {c : Char} (inside : isIdentifierChar c = true) :
    continuesName c = true := by
  simp only [isIdentifierChar, Bool.or_eq_true, decide_eq_true_eq] at inside
  rcases inside with (alphanumeric | rfl) | rfl
  · simp [continuesName, isAlphanumeric_of_isAlphanum alphanumeric]
  · simp [continuesName]
  · simp [continuesName]

/-- A call site stands behind no character of an identifier. -/
theorem separate_of_call {before gap rest literal after : List Char}
    (called : (Cursor.between (before ++ gap) rest).call? callee = some (literal, after)) :
    gap.getLast?.any isIdentifierChar = false := by
  have separate := (Cursor.call?_between called).1
  rw [List.getLast?_append] at separate
  cases last : gap.getLast? with
  | none => rfl
  | some c =>
    rw [last, Option.some_or, Option.any_some] at separate
    rw [Option.any_some, Bool.eq_false_iff]
    intro inside
    rw [continuesName_of_isIdentifierChar inside] at separate
    cases separate

/-- **The reading of a body meets the identifiers of the call sites**, with the gaps between. -/
theorem readNames_body (named : Named callee bindings)
    (plain : ∀ c ∈ callee, isIdentifierChar c = true) {before text tail : List Char}
    {occurrences : List Occurrence} (leftmost : Leftmost callee before text occurrences tail)
    (unmarked : ¬ marker callee <:+: text) (name : String → String)
    (bound : ∀ occurrence ∈ occurrences, ⟨String.ofList occurrence.site.literal,
      name (String.ofList occurrence.site.literal)⟩ ∈ bindings) :
    readNames bindings ((occurrences.flatMap fun occurrence => occurrence.gap ++
        (name (String.ofList occurrence.site.literal)).toList) ++ tail) =
      ⟨occurrences.map fun occurrence => (occurrence.gap, ⟨String.ofList occurrence.site.literal,
        name (String.ofList occurrence.site.literal)⟩), tail⟩ := by
  induction leftmost with
  | done =>
    have passed : readNames bindings (_ ++ []) = _ :=
      readNames_gap named plain unmarked (Or.inr rfl)
    rw [readNames_nil, List.append_nil] at passed
    simpa [Reading.behind] using passed
  | @site before gap literal rest tail occurrences uncalled called later ih =>
    have unmarkedGap : ¬ marker callee <:+: gap := fun inside =>
      unmarked (inside.trans (by
        rw [List.append_assoc]
        exact (List.prefix_append gap _).isInfix))
    have unmarkedRest : ¬ marker callee <:+: rest := fun inside =>
      unmarked (inside.trans (List.suffix_append _ rest).isInfix)
    have known := bound _ List.mem_cons_self
    have met := bindingAt?_identifier named known ((occurrences.flatMap fun occurrence =>
      occurrence.gap ++ (name (String.ofList occurrence.site.literal)).toList) ++ tail)
    have further := ih unmarkedRest fun occurrence member =>
      bound occurrence (List.mem_cons_of_mem _ member)
    rw [List.flatMap_cons, List.append_assoc, List.append_assoc,
      readNames_gap named plain unmarkedGap (Or.inl (separate_of_call called)),
      readNames_of_some met rfl, further]
    simp [Reading.behind]

/-! ### The source is recovered -/

/-- The bindings of a source have different identifiers of its callee. -/
theorem named_bindings (callee source : String) :
    Named callee.toList (hoist callee source).bindings where
  stems binding member := by
    rw [hoist_bindings] at member
    rcases BindingTable.mem_resolveAll (Array.mem_toList_iff.mp member) with old | ⟨question, asked,
      stem, isStem, shape⟩
    · exact absurd old (by simp [BindingTable.empty])
    · obtain ⟨occurrence, -, rfl⟩ := List.mem_map.mp asked
      exact ⟨stem, isStem, shape⟩
  identifiers := by
    rw [hoist_bindings]
    exact (lastTable_consistent callee source).identifiers

/-- The code of a source is read as its gaps with the literals of its call sites between. -/
theorem readNames_hoist {callee source : String} (nonempty : callee ≠ "")
    (plain : ∀ c ∈ callee.toList, isIdentifierChar c = true)
    (unmarked : ¬ marker callee.toList <:+: source.toList) :
    ∃ body, (hoist callee source).code.toList =
        Hoisted.imports (hoist callee source).bindings ++ body ∧
      (readNames (hoist callee source).bindings body).met.map
          (fun (gap, binding) => (gap, binding.literal.toList)) =
        (Scanner.start callee source).split.1.map
          (fun occurrence => (occurrence.gap, occurrence.site.literal)) ∧
      (readNames (hoist callee source).bindings body).tail =
        (Scanner.start callee source).split.2 := by
  refine ⟨_, hoist_code callee source, ?_⟩
  rw [readNames_body (named_bindings callee source) plain (start_leftmost nonempty source) unmarked]
  · simp
  · exact fun occurrence member => mem_hoist_bindings member

theorem recover_hoist {callee source : String} (nonempty : callee ≠ "")
    (plain : ∀ c ∈ callee.toList, isIdentifierChar c = true)
    (unmarked : ¬ marker callee.toList <:+: source.toList) :
    recover callee (hoist callee source).code (hoist callee source).bindings = some source := by
  obtain ⟨body, code, met, tail⟩ := readNames_hoist nonempty plain unmarked
  rw [recover, afterWord?_eq_some_iff.mpr code, Option.map_some, Reading.restore, tail]
  have pieces : (readNames (hoist callee source).bindings body).met.flatMap
      (fun (gap, binding) => gap ++ callText callee.toList binding.literal.toList) =
      ((readNames (hoist callee source).bindings body).met.map
        (fun (gap, binding) => (gap, binding.literal.toList))).flatMap
          (fun piece => piece.1 ++ callText callee.toList piece.2) := by
    rw [List.flatMap_map]
  rw [pieces, met, List.flatMap_map, split_text, String.ofList_toList]

/-- **Hoisting loses nothing.** Let the callee be made of ASCII letters, digits, `_` and `$`, and
let the source not contain the marker of its identifiers. Then the source is what the reading of
the code from left to right gives back, of two bound identifiers neither begins with the other,
the reading meets identifiers where the call sites were and nowhere else, and no other such source
has the same code and the same bindings. -/
theorem hoist_recoverable (callee source : String) (nonempty : callee ≠ "")
    (plain : ∀ c ∈ callee.toList, isIdentifierChar c = true)
    (unmarked : ¬ marker callee.toList <:+: source.toList) :
    let result := hoist callee source
    let split := (Scanner.start callee source).split
    recover callee result.code result.bindings = some source ∧
      (result.bindings.Pairwise fun first second =>
        ¬ first.identifier.toList <+: second.identifier.toList ∧
          ¬ second.identifier.toList <+: first.identifier.toList) ∧
      (∃ body, result.code.toList = Hoisted.imports result.bindings ++ body ∧
        (readNames result.bindings body).met.map
            (fun (gap, binding) => (gap, binding.literal.toList)) =
          split.1.map (fun occurrence => (occurrence.gap, occurrence.site.literal)) ∧
        (readNames result.bindings body).tail = split.2) ∧
      ∀ other : String, ¬ marker callee.toList <:+: other.toList →
        (hoist callee other).code = result.code →
          (hoist callee other).bindings = result.bindings → other = source := by
  intro result split
  have named := named_bindings callee source
  refine ⟨recover_hoist nonempty plain unmarked, ?_, readNames_hoist nonempty plain unmarked,
    fun other unmarked' code bindings => ?_⟩
  · have distinct := List.pairwise_map.mp named.identifiers
    refine distinct.imp_of_mem fun {first second} isFirst isSecond different => ?_
    obtain ⟨stem, isStem, shape⟩ := named.stems first isFirst
    obtain ⟨stem', isStem', shape'⟩ := named.stems second isSecond
    have apart : stem ≠ stem' := fun same =>
      different (String.toList_injective (by rw [shape, shape', same]))
    rw [shape, shape']
    exact ⟨fun begins => apart (eq_of_wrap_begins isStem isStem' (begins.trans
      (List.prefix_append _ []))), fun begins => apart (eq_of_wrap_begins isStem' isStem
        (begins.trans (List.prefix_append _ []))).symm⟩
  · have recovered := recover_hoist nonempty plain unmarked'
    rw [code, bindings, recover_hoist nonempty plain unmarked] at recovered
    exact (Option.some.inj recovered).symm

/-- Two empty literals, so that one name has a number, side by side and before a letter. -/
theorem recover_adjacent_calls :
    "r" ≠ "" ∧ (∀ c ∈ "r".toList, isIdentifierChar c = true) ∧
      ¬ marker "r".toList <:+: "r('')r(\"\")x".toList ∧
      recover "r" (hoist "r" "r('')r(\"\")x").code (hoist "r" "r('')r(\"\")x").bindings =
        some "r('')r(\"\")x" := by
  have nonempty : "r" ≠ "" := by decide
  have plain : ∀ c ∈ "r".toList, isIdentifierChar c = true := by
    intro c member
    rw [List.mem_singleton.mp (show c ∈ ['r'] from member)]
    rfl
  have unmarked : ¬ marker "r".toList <:+: "r('')r(\"\")x".toList := by decide +kernel
  exact ⟨nonempty, plain, unmarked, (hoist_recoverable _ _ nonempty plain unmarked).1⟩

end RenderLink
