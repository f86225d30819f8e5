/-
**Ranges that an entry point reports.**

An entry point counts its ranges in UTF-16 units of the template. The compiler that calls it puts
the characters of the template in their place and changes nothing else of what was returned. All of
this is so for any entry point; those of the described bundles are some.

* `rebases_iff`: what a diagnostic with its range in characters is.
* `compile_eq_ok_iff`: what the compiler makes of what the entry point returned.
* `ranges_converted`: **ranges are converted** to the characters that they mean.
-/

import RenderLink.Bundle
import RenderLink.Proofs.Text.Utf16
import Mathlib.Data.List.Forall2

namespace RenderLink.Bundle

open Json Text

variable {source : String} {read output : TemplateOutput}

/-! ### Diagnostics -/

/-- A diagnostic whose range in UTF-16 units of a text has become one in characters. -/
inductive Rebases (text : List Char) : Diagnostic → Diagnostic → Prop
  | plain (message : String) : Rebases text (.plain message) (.plain message)
  | ranged (message : String) {start stop start' stop' : UInt64}
      (first : Converts text start.toNat start'.toNat)
      (last : Converts text stop.toNat stop'.toNat) :
      Rebases text (.ranged message start stop) (.ranged message start' stop')

/-- An output whose diagnostics have their ranges in characters, and is the same in all else. -/
structure IsRebased (text : List Char) (read output : TemplateOutput) : Prop where
  code : output.code = read.code
  tips : List.Forall₂ (Rebases text) read.tips output.tips
  errors : List.Forall₂ (Rebases text) read.errors output.errors

/-- A converted offset fits in 64 bits. -/
theorem toNat_charOffset (text : List Char) (offset : UInt64) :
    (UInt64.ofNat (charOffset text offset.toNat)).toNat = charOffset text offset.toNat :=
  UInt64.toNat_ofNat_of_lt' (Nat.lt_of_le_of_lt (charOffset_le text _) offset.toNat_lt)

theorem converts_iff {text : List Char} {offset characters : UInt64} :
    Converts text offset.toNat characters.toNat ↔
      characters = UInt64.ofNat (charOffset text offset.toNat) := by
  rw [← UInt64.toNat_inj, toNat_charOffset]
  constructor
  · intro converted
    exact converted.unique (charOffset_converts text offset.toNat)
  · intro same
    rw [same]
    exact charOffset_converts text offset.toNat

/-- A diagnostic is converted in one way only. -/
theorem rebases_iff {diagnostic diagnostic' : Diagnostic} :
    Rebases source.toList diagnostic diagnostic' ↔
      diagnostic.inCharacters source = diagnostic' := by
  constructor
  · intro rebased
    cases rebased with
    | plain message => rfl
    | ranged message first last =>
      rw [converts_iff] at first last
      rw [Diagnostic.inCharacters, first, last]
  · rintro rfl
    cases diagnostic with
    | plain message => exact .plain message
    | ranged message start stop =>
      exact .ranged message (converts_iff.mpr rfl) (converts_iff.mpr rfl)

theorem forall₂_rebases_iff {found shown : List Diagnostic} :
    List.Forall₂ (Rebases source.toList) found shown ↔
      found.map (Diagnostic.inCharacters source) = shown := by
  rw [← List.forall₂_eq_eq_eq, List.forall₂_map_left_iff]
  constructor
  · exact fun rebased => rebased.imp fun _ _ => rebases_iff.mp
  · exact fun same => same.imp fun _ _ => rebases_iff.mpr

theorem isRebased_iff :
    IsRebased source.toList read output ↔
      { read with
        tips := read.tips.map (Diagnostic.inCharacters source)
        errors := read.errors.map (Diagnostic.inCharacters source) } = output := by
  constructor
  · intro rebased
    rw [forall₂_rebases_iff.mp rebased.tips, forall₂_rebases_iff.mp rebased.errors, ← rebased.code]
  · rintro rfl
    exact ⟨rfl, forall₂_rebases_iff.mpr rfl, forall₂_rebases_iff.mpr rfl⟩

/-! ### The compiler of an entry point -/

/-- A template compiles exactly if what the entry point returns is an output, and then this output
has its ranges converted. -/
theorem compile_eq_ok_iff (call : EntryPoint) (options : CompileOptions)
    (output : TemplateOutput) :
    call.compiler.compile options = .ok output ↔
      ∃ returned read, call options.source options.toJson.toText = .ok returned ∧
        TemplateOutput.parse returned = .ok read ∧
        IsRebased options.source.toList read output := by
  simp only [isRebased_iff]
  unfold EntryPoint.compiler
  simp only [bind, Except.bind]
  cases called : call options.source options.toJson.toText with
  | error cause =>
    constructor
    · rintro ⟨⟩
    · rintro ⟨_, _, ⟨⟩, _⟩
  | ok returned =>
    simp only [Except.ok.injEq, exists_and_left, exists_eq_left']
    cases TemplateOutput.parse returned with
    | error cause =>
      constructor
      · rintro ⟨⟩
      · rintro ⟨_, ⟨⟩, _⟩
    | ok read => simp only [Except.ok.injEq, exists_eq_left']

/-- **Ranges are converted.** For the text of any template, an offset in UTF-16 units converts to
the characters that it is within, one past the end keeps its distance from the end, the units of the
first characters convert to their number, the order of offsets is kept, an offset between two
surrogates is rounded up, and one pass over the text finds the result with sums of 64 bits, as the
length of the text in bytes is a number of 64 bits itself. The compiler that calls an entry point
puts this conversion in place of the start and the end of every range among the tips and errors that
were returned, and changes nothing else. -/
theorem ranges_converted (call : EntryPoint) (options : CompileOptions) :
    let text := options.source.toList
    (∀ offset, Converts text offset (charOffset text offset)) ∧
      (∀ count ≤ text.length, charOffset text (unitsBefore text count) = count) ∧
      (∀ start stop, start ≤ stop → charOffset text start ≤ charOffset text stop) ∧
      (∀ before c after high low, text = before ++ c :: after → encodeUnits c = [high, low] →
        charOffset text ((toUnits before).length + 1) = before.length + 1) ∧
      (byteLength text < 2 ^ 64 → ∀ offset : UInt64,
        (countFrom? offset 0 0 text).map UInt64.toNat = some (charOffset text offset.toNat)) ∧
      ∀ output, call.compiler.compile options = .ok output ↔
        ∃ returned read, call options.source options.toJson.toText = .ok returned ∧
          TemplateOutput.parse returned = .ok read ∧ IsRebased text read output := by
  intro text
  refine ⟨charOffset_converts text, fun count within => charOffset_unitsBefore within,
    fun start stop ordered => ?_, fun before c after high low whole pair => ?_,
    fun small offset => countFrom?_eq small offset, compile_eq_ok_iff call options⟩
  · exact (charOffset_converts text start).mono (charOffset_converts text stop) ordered
  · rw [whole]
    exact charOffset_inside_pair before after pair

/-- What a bundle reports of a template with a character beyond the basic plane: a range from
between its surrogates to far past the end. -/
def pairReport : String :=
  "\x7b\"code\":\"c\",\"tips\":[\"t\"],\"errors\":[\x7b\"msg\":\"m\",\"start\":2,\"end\":9\x7d]\x7d"

/-- The range begins behind the character and ends five characters past the end of the template. -/
theorem pairReport_converted :
    let text := "a😀b".toList
    2 ≤ text.length ∧ charOffset text (unitsBefore text 2) = 2 ∧
      2 ≤ 9 ∧ charOffset text 2 ≤ charOffset text 9 ∧
      encodeUnits '😀' = [0xD83D, 0xDE00] ∧ charOffset text ((toUnits ['a']).length + 1) = 2 ∧
      byteLength text < 2 ^ 64 ∧
      (countFrom? 9 0 0 text).map UInt64.toNat = some (charOffset text 9) ∧
      (returns pairReport).compiler.compile
          (CompileOptions.defaults "a😀b" "A.vue" ⟨none⟩ false false) =
        .ok { code := "c", tips := [.plain "t"], errors := [.ranged "m" 2 8] } := by
  obtain ⟨-, exact, ordered, pairs, sums, compiles⟩ := ranges_converted (returns pairReport).call
    (CompileOptions.defaults "a😀b" "A.vue" ⟨none⟩ false false)
  have parsed : TemplateOutput.parse pairReport =
      .ok { code := "c", tips := [.plain "t"], errors := [.ranged "m" 2 9] } := by
    decide +kernel
  refine ⟨by decide, exact 2 (by decide), by decide, ordered 2 9 (by decide), by decide,
    pairs ['a'] '😀' ['b'] 0xD83D 0xDE00 rfl (by decide), by decide, sums (by decide) 9,
    (compiles _).mpr ⟨pairReport, _, rfl, parsed, ?_⟩⟩
  exact isRebased_iff.mpr (by decide)

end RenderLink.Bundle
