/-
**References as a template compiler writes them.**

A template compiler writes a reference as a call whose argument is the JSON text of a string. That
text is a literal to the search for call sites, whatever the string holds: a character is written
without a quotation mark or backslash of its own, or behind a backslash, which takes the next
character along (`literalFrom?_escape`). So quotation marks, backslashes and whole calls inside of
the string stay inside of the literal.

* `call?_renderString`: the call of a string is a call, and its literal is the text of the string.
* `Leftmost.of_references`: the gaps and calls of generated code are what the search finds.
* `hoist_of_references`: **every reference is found**, there is one import for each string, and the
  literal of each import is read as its string.
-/

import RenderLink.Proofs.Hoist.Recovery
import RenderLink.Proofs.Json.StringText

namespace RenderLink

open Identifier Text Json

/-! ### Texts of strings as literals -/

theorem literalFrom?_plain {mark c : Char} (backslash : c ≠ '\\') (quotation : c ≠ mark)
    (text : List Char) :
    literalFrom? mark .inside (c :: text) =
      (literalFrom? mark .inside text).map fun (body, rest) => (c :: body, rest) := by
  rw [literalFrom?, LiteralState.step, if_neg backslash, if_neg quotation]

theorem literalFrom?_backslash (mark c : Char) (text : List Char) :
    literalFrom? mark .inside ('\\' :: c :: text) =
      (literalFrom? mark .inside text).map fun (body, rest) => ('\\' :: c :: body, rest) := by
  rw [literalFrom?, LiteralState.step, if_pos rfl, literalFrom?, LiteralState.step, Option.map_map]
  rfl

theorem digitChar_plain : ∀ n < 16, Nat.digitChar n ≠ '\\' ∧ Nat.digitChar n ≠ '"' := by
  decide

theorem hexDigit_plain (n : Nat) : hexDigit n ≠ '\\' ∧ hexDigit n ≠ '"' :=
  digitChar_plain _ (Nat.mod_lt _ (by decide))

/-- A reader of a literal passes over what is written for a character. -/
theorem literalFrom?_escape (c : Char) (text : List Char) :
    literalFrom? '"' .inside (escape c ++ text) =
      (literalFrom? '"' .inside text).map fun (body, rest) => (escape c ++ body, rest) := by
  rcases escape_cases c with ⟨shape, quotation, backslash, -⟩ | ⟨sign, shape, -⟩ | ⟨shape, -⟩
  · rw [shape]
    exact literalFrom?_plain backslash quotation text
  · rw [shape]
    exact literalFrom?_backslash '"' sign text
  · have zero : '0' ≠ '\\' ∧ '0' ≠ '"' := by decide
    have high := hexDigit_plain (c.toNat / 16)
    have low := hexDigit_plain c.toNat
    rw [shape]
    simp only [List.cons_append, List.nil_append, literalFrom?_backslash,
      literalFrom?_plain zero.1 zero.2, literalFrom?_plain high.1 high.2,
      literalFrom?_plain low.1 low.2, Option.map_map]
    rfl

theorem literalFrom?_flatMap_escape (text rest : List Char) :
    literalFrom? '"' .inside (text.flatMap escape ++ '"' :: rest) =
      some (text.flatMap escape ++ ['"'], rest) := by
  induction text with
  | nil => simp [literalFrom?, LiteralState.step]
  | cons c text ih =>
    rw [List.flatMap_cons, List.append_assoc, literalFrom?_escape, ih]
    simp

/-- **The text of a string is a literal**, and it ends where the literal does. -/
theorem literal?_renderString (text rest : List Char) :
    literal? (renderString text ++ rest) = some (renderString text, rest) := by
  have quotation : isQuotationMark '"' = true := rfl
  simp [renderString, literal?, quotation, literalFrom?_flatMap_escape]

/-- **The call of a string is a call.** -/
theorem call?_renderString (callee text rest : List Char) :
    call? callee (callText callee (renderString text) ++ rest) =
      some (renderString text, rest) := by
  have arguments : afterWord? callee (callText callee (renderString text) ++ rest) =
      some ('(' :: (renderString text ++ ')' :: rest)) := by
    rw [afterWord?_eq_some_iff]
    simp [callText]
  simp [call?, arguments, afterWord?, literal?_renderString]

/-! ### Generated code -/

/-- A reference in generated code: some text, and the call of a string. -/
structure Reference where
  gap : String
  target : String

/-- The argument of a reference: the JSON text of its string. -/
def Reference.literal (reference : Reference) : String := (Json.string reference.target).toText

theorem Reference.toList_literal (reference : Reference) :
    reference.literal.toList = renderString reference.target.toList := String.toList_ofList

/-- The code of references with the text before each. -/
def referencesText (callee : List Char) (references : List Reference) : List Char :=
  references.flatMap fun reference =>
    reference.gap.toList ++ callText callee reference.literal.toList

/-- A text that a search for a callee passes over: the callee does not stand in it, and a callee
behind it stands by itself. -/
structure Passed (callee gap : List Char) : Prop where
  absent : ¬ callee <:+: gap
  separate : gap.getLast?.any continuesName = false

variable {callee before tail : List Char} {references : List Reference}

theorem separate_append {first second : List Char}
    (isFirst : first.getLast?.any continuesName = false)
    (isSecond : second.getLast?.any continuesName = false) :
    (first ++ second).getLast?.any continuesName = false := by
  rw [List.getLast?_append]
  cases last : second.getLast? with
  | none => exact isFirst
  | some c =>
    rw [last] at isSecond
    exact isSecond

/-- A call behind a text that is passed over is found. -/
theorem call?_of_passed {gap : List Char} (separate : before.getLast?.any continuesName = false)
    (passed : Passed callee gap) (reference : Reference) (rest : List Char) :
    (Cursor.between (before ++ gap) (callText callee reference.literal.toList ++ rest)).call?
      callee = some (reference.literal.toList, rest) := by
  have apart := separate_append separate passed.separate
  rw [Cursor.call?, Cursor.between, if_neg (by rw [apart]; decide), reference.toList_literal]
  exact call?_renderString callee _ rest

/-- **The search finds the references of generated code**, and the texts between them. -/
theorem Leftmost.of_references (plain : ∀ c ∈ callee, continuesName c = true)
    (passed : ∀ reference ∈ references, Passed callee reference.gap.toList)
    (last : ¬ callee <:+: tail) (separate : before.getLast?.any continuesName = false) :
    ∃ occurrences,
      Leftmost callee before (referencesText callee references ++ tail) occurrences tail ∧
      occurrences.map (fun occurrence => (occurrence.gap, occurrence.site.literal)) =
        references.map fun reference => (reference.gap.toList, reference.literal.toList) := by
  induction references generalizing before with
  | nil => exact ⟨[], .done (uncalled_of_absent plain last (Or.inr rfl)), rfl⟩
  | cons reference references ih =>
    have here := passed reference List.mem_cons_self
    have closed :
        (callText callee reference.literal.toList).getLast?.any continuesName = false := by
      rw [callText, List.getLast?_concat]
      decide +kernel
    obtain ⟨occurrences, later, parts⟩ :=
      ih (fun other member => passed other (List.mem_cons_of_mem _ member))
        (separate_append (separate_append separate here.separate) closed)
    have found := Leftmost.site (uncalled_of_absent plain here.absent (Or.inl here.separate))
      (call?_of_passed separate here reference _) later
    rw [referencesText, List.flatMap_cons, List.append_assoc]
    refine ⟨_, found, ?_⟩
    rw [List.map_cons, List.map_cons, parts]
    rfl

/-! ### Imports of generated code -/

/-- An injective function keeps apart what is different. -/
theorem eraseDups_map_of_injective {α β : Type} [BEq α] [LawfulBEq α] [BEq β] [LawfulBEq β]
    {f : α → β} (injective : Function.Injective f) (items : List α) :
    (items.map f).eraseDups = items.eraseDups.map f := by
  induction length : items.length using Nat.strongRecOn generalizing items with
  | ind n ih =>
    cases items with
    | nil => rfl
    | cons first items =>
      have others : (items.map f).filter (fun b => !b == f first) =
          (items.filter fun a => !a == first).map f := by
        rw [List.filter_map]
        congr 1
        refine List.filter_congr fun a _ => ?_
        rw [Bool.eq_iff_iff]
        simp [injective.eq_iff]
      have shorter : (items.filter fun a => !a == first).length < n := by
        rw [← length, List.length_cons]
        exact Nat.lt_succ_of_le (List.length_filter_le _ items)
      rw [List.map_cons, List.eraseDups_cons, List.eraseDups_cons, others, List.map_cons,
        ih _ shorter _ rfl]

/-- **Every reference is found.** Let the callee be made of ASCII letters, digits, `_` and `$`, and
let generated code be references to strings of any kind, with texts before, between and behind them
in which the callee does not stand, and which do not end in a character that continues a name where
a reference follows. Then the call sites are the references in their order, each with the JSON text
of its string as its literal; the bindings are one for each string, in the order of first
occurrence; the code is their imports above the texts, with names for the references; and the
literal of each binding is read as its string. -/
theorem hoist_of_references (callee : String) (references : List Reference) (tail : String)
    (nonempty : callee ≠ "") (plain : ∀ c ∈ callee.toList, isIdentifierChar c = true)
    (passed : ∀ reference ∈ references, Passed callee.toList reference.gap.toList)
    (last : ¬ callee.toList <:+: tail.toList) :
    let source := String.ofList (referencesText callee.toList references ++ tail.toList)
    let split := (Scanner.start callee source).split
    let result := hoist callee source
    let targets := (references.map Reference.target).eraseDups
    (Scanner.start callee source).sites.map (fun site => String.ofList site.literal) =
        references.map Reference.literal ∧
      split.1.map (fun occurrence => String.ofList occurrence.gap) =
        references.map Reference.gap ∧
      split.2 = tail.toList ∧
      (∃ name : String → String,
        result.bindings = targets.map (fun target => ⟨(Json.string target).toText, name target⟩) ∧
        result.code.toList = Hoisted.imports result.bindings ++
          (references.flatMap fun reference =>
            reference.gap.toList ++ (name reference.target).toList) ++ tail.toList) ∧
      result.bindings.map (fun binding => parse binding.literal) =
        targets.map fun target => .ok (.string target) := by
  intro source split result targets
  have continues : ∀ c ∈ callee.toList, continuesName c = true := fun c member =>
    continuesName_of_isIdentifierChar (plain c member)
  have start : ([] : List Char).getLast?.any continuesName = false := rfl
  obtain ⟨occurrences, generated, parts⟩ := Leftmost.of_references continues passed last start
  have searched := start_leftmost nonempty source
  rw [show source.toList = _ from String.toList_ofList] at searched
  obtain ⟨found, behind⟩ := searched.unique generated
  rw [← found] at parts
  have literals : (Scanner.start callee source).sites.map (fun site => String.ofList site.literal) =
      references.map Reference.literal := by
    have seconds := congrArg (List.map fun part => String.ofList part.2) parts
    simpa [Scanner.sites, Function.comp_def] using seconds
  have gaps : split.1.map (fun occurrence => String.ofList occurrence.gap) =
      references.map Reference.gap := by
    have firsts := congrArg (List.map fun part => String.ofList part.1) parts
    simpa [Function.comp_def] using firsts
  have distinct : firstLiterals (Scanner.start callee source).sites =
      targets.map fun target => (Json.string target).toText := by
    rw [firstLiterals, literals, ← eraseDups_map_of_injective toText_string_injective,
      List.map_map]
    rfl
  have bindings := hoist_bindings_eq_map callee source
  rw [distinct, List.map_map] at bindings
  refine ⟨literals, gaps, behind, ⟨fun target =>
    (lastTable callee source).nameOf (Json.string target).toText, bindings, ?_⟩, ?_⟩
  · have body := congrArg (List.flatMap fun part =>
      part.1 ++ ((lastTable callee source).nameOf (String.ofList part.2)).toList) parts
    simp only [List.flatMap_map, String.ofList_toList] at body
    rw [hoist_code, behind, body, List.append_assoc]
    rfl
  · change (hoist callee source).bindings.map _ = _
    simp only [bindings, List.map_map, Function.comp_def, parse_toText_string]

/-- A string that holds a whole call between quotation marks and ends in a backslash. -/
theorem call_inside_string_is_no_site :
    "r" ≠ "" ∧ (∀ c ∈ "r".toList, isIdentifierChar c = true) ∧ Passed "r".toList "=".toList ∧
      ¬ "r".toList <:+: ";".toList ∧
      (Scanner.start "r" "=r(\"\\\"r('y')\\\\\");").sites.map
          (fun site => String.ofList site.literal) = ["\"\\\"r('y')\\\\\""] ∧
      (hoist "r" "=r(\"\\\"r('y')\\\\\");").bindings.map (fun binding => parse binding.literal) =
        [.ok (.string "\"r('y')\\")] := by
  have nonempty : "r" ≠ "" := by decide
  have plain : ∀ c ∈ "r".toList, isIdentifierChar c = true :=
    List.all_eq_true.1 (by decide)
  have gap : Passed "r".toList "=".toList := ⟨by decide, by decide +kernel⟩
  have tail : ¬ "r".toList <:+: ";".toList := by decide
  have written : String.ofList (referencesText "r".toList [⟨"=", "\"r('y')\\"⟩] ++ ";".toList) =
      "=r(\"\\\"r('y')\\\\\");" := by decide +kernel
  obtain ⟨literals, -, -, -, strings⟩ := hoist_of_references "r" [⟨"=", "\"r('y')\\"⟩] ";"
    nonempty plain (by simpa using gap) tail
  rw [written] at literals strings
  refine ⟨nonempty, plain, gap, tail, literals.trans (by decide +kernel), strings.trans ?_⟩
  rfl

end RenderLink
