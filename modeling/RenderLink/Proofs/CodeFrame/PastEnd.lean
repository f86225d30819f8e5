/-
**Frames of ranges past the end.**

An entry point may report a range that begins past the end of the template. The conversion to
characters keeps its distance from the end, but its frame is not always empty. The end of the last
line counts as one more character, and a range that begins there is still on that line, unless a
carriage return that no line counts makes up for it. And an offset from 2⁶³ on is a negative one to
the frame, which begins on the first line.

* `extent_lines`: what the lines of a text take up, with the carriage returns that end them.
* `render_eq_empty_iff_extent`: when a frame is empty, for offsets of 64 bits.
* `frame_past_end_eq_empty_iff`: **when a frame past the end is empty.**
-/

import RenderLink.Proofs.Bundle
import RenderLink.Proofs.CodeFrame.Window

namespace RenderLink.CodeFrame

open Text

/-! ### What lines take up -/

/-- Whether a piece between line feeds ends in a carriage return. -/
def endsInReturn (piece : List Char) : Bool := piece.getLast? = some '\r'

theorem length_stripReturn (piece : List Char) :
    (stripReturn piece).length + (if endsInReturn piece then 1 else 0) = piece.length := by
  unfold stripReturn endsInReturn
  by_cases ending : piece.getLast? = some '\r'
  · have filled : 0 < piece.length := List.length_pos_of_mem (List.mem_of_getLast? ending)
    simp only [ending, if_true, decide_true, List.length_dropLast]
    omega
  · simp [ending]

theorem extent_stripReturn (pieces : List (List Char)) :
    extent (pieces.map stripReturn) + pieces.countP endsInReturn = extent pieces := by
  induction pieces with
  | nil => rfl
  | cons piece rest ih =>
    have here := length_stripReturn piece
    rw [List.map_cons, extent_cons, extent_cons, List.countP_cons]
    omega

/-- **What the lines of a text take up:** one more than the text, less the carriage returns at the
ends of lines. -/
theorem extent_lines (text : List Char) :
    extent (lines text) + (splitOn '\n' text).countP endsInReturn = text.length + 1 := by
  rw [lines, extent_stripReturn, extent_splitOn]

/-! ### Offsets of 64 bits -/

variable {source : String} {start stop : UInt64}

/-- An offset from 2⁶³ on is negative as a signed number. -/
theorem signed_neg {offset : UInt64} (large : 2 ^ 63 ≤ offset.toNat) : signed offset < 0 := by
  show offset.toBitVec.toInt < 0
  have same : offset.toBitVec.toNat = offset.toNat := rfl
  rw [BitVec.toInt_neg_iff]
  omega

/-- A range with a negative start begins on the first line. -/
theorem rows_ne_nil_of_neg (source : List Char) {start : Int} (negative : start < 0) (stop : Int) :
    rows source start stop ≠ [] := by
  unfold rows
  obtain ⟨line, rest, all⟩ := List.exists_cons_of_ne_nil (lines_ne_nil source)
  have first := @rowsFrom_mark start stop 0 1 [] line rest (by omega)
  rw [all]
  exact first ▸ List.cons_ne_nil _ _

/-- A frame is empty just when its range begins behind the last line, at an offset below 2⁶³. -/
theorem render_eq_empty_iff_extent :
    render source start stop = "" ↔
      start.toNat < 2 ^ 63 ∧ extent (lines source.toList) < start.toNat := by
  rw [render_eq_empty_iff]
  by_cases small : start.toNat < 2 ^ 63
  · rw [signed_of_lt small, rows_eq_nil_iff, and_iff_right small]
  · have shown := rows_ne_nil_of_neg source.toList (signed_neg (Nat.not_lt.mp small)) (signed stop)
    exact iff_of_false shown fun both => small both.1

end RenderLink.CodeFrame

namespace RenderLink.Bundle

open Json Text CodeFrame

/-- **When a frame past the end is empty.** An entry point reports an error with a range that begins
past the end of the template in UTF-16 units. In the output it begins as many characters past the
end. Its frame is empty just when that offset is below 2⁶³ and the range begins further behind the
end than one unit or a line of the template ends in a carriage return. -/
theorem frame_past_end_eq_empty_iff (call : EntryPoint) (options : CompileOptions)
    {output : TemplateOutput} (compiled : call.compiler.compile options = .ok output) :
    let text := options.source.toList
    ∃ returned read, call options.source options.toJson.toText = .ok returned ∧
      TemplateOutput.parse returned = .ok read ∧
      ∀ (place : Nat) (message : String) (start stop : UInt64),
        read.errors[place]? = some (.ranged message start stop) → units text < start.toNat →
        ∃ first last, output.errors[place]? = some (.ranged message first last) ∧
          first.toNat = text.length + (start.toNat - units text) ∧
          (call.compiler.codeFrame options.source first last = "" ↔
            first.toNat < 2 ^ 63 ∧ (units text + 1 < start.toNat ∨
              ∃ line ∈ splitOn '\n' text, line.getLast? = some '\r')) := by
  intro text
  obtain ⟨returned, read, called, parsed, rebased⟩ :=
    (compile_eq_ok_iff call options output).mp compiled
  refine ⟨returned, read, called, parsed, fun place message start stop found past => ?_⟩
  let first := UInt64.ofNat (charOffset text start.toNat)
  let last := UInt64.ofNat (charOffset text stop.toNat)
  have shown : output.errors[place]? = some (.ranged message first last) := by
    rw [← forall₂_rebases_iff.mp rebased.errors, List.getElem?_map, found]
    rfl
  have moved : first.toNat = text.length + (start.toNat - units text) := by
    rw [toNat_charOffset, charOffset_of_units_le (Nat.le_of_lt past)]
  refine ⟨first, last, shown, moved, ?_⟩
  show render options.source first last = "" ↔ _
  have taken := extent_lines text
  have returns : 0 < (splitOn '\n' text).countP endsInReturn ↔
      ∃ line ∈ splitOn '\n' text, line.getLast? = some '\r' := by
    simp [List.countP_pos_iff, endsInReturn]
  rw [render_eq_empty_iff_extent, ← returns]
  apply and_congr_right
  intro small
  show extent (lines text) < first.toNat ↔ _
  omega

/-- Three errors of a template of three characters: one unit behind its end, two units behind it,
and at the last offset of 64 bits. -/
def pastEndReport : String :=
  "\x7b\"code\":\"c\",\"tips\":[],\"errors\":[\x7b\"msg\":\"m\",\"start\":4,\"end\":5\x7d," ++
    "\x7b\"msg\":\"m\",\"start\":5,\"end\":6\x7d," ++
    "\x7b\"msg\":\"m\",\"start\":18446744073709551615,\"end\":18446744073709551615\x7d]\x7d"

def pastEndOptions : CompileOptions := CompileOptions.defaults "abc" "A.vue" ⟨none⟩ false false

def pastEndErrors : List Diagnostic :=
  [.ranged "m" 4 5, .ranged "m" 5 6, .ranged "m" 18446744073709551615 18446744073709551615]

theorem parse_pastEndReport : TemplateOutput.parse pastEndReport =
    .ok { code := "c", tips := [], errors := pastEndErrors } := by
  decide +kernel

theorem compile_pastEnd : (returns pastEndReport).compiler.compile pastEndOptions =
    .ok { code := "c", tips := [], errors := pastEndErrors } := by
  refine (compile_eq_ok_iff (returns pastEndReport).call _ _).mpr
    ⟨pastEndReport, _, rfl, parse_pastEndReport, ?_⟩
  exact isRebased_iff.mpr (by decide +kernel)

/-- The frame of the second error is empty. -/
theorem frame_two_behind_end :
    (returns pastEndReport).compiler.compile pastEndOptions =
        .ok { code := "c", tips := [], errors := pastEndErrors } ∧
      pastEndErrors[1]? = some (.ranged "m" 5 6) ∧ units "abc".toList < 5 ∧
      (returns pastEndReport).compiler.codeFrame "abc" 5 6 = "" := by
  obtain ⟨returned, read, called, parsed, frames⟩ :=
    frame_past_end_eq_empty_iff (returns pastEndReport).call pastEndOptions compile_pastEnd
  obtain rfl : returned = pastEndReport := (Except.ok.inj called).symm
  rw [parse_pastEndReport] at parsed
  obtain rfl := Except.ok.inj parsed
  obtain ⟨first, last, shown, -, empty⟩ := frames 1 "m" 5 6 rfl (by decide)
  obtain ⟨rfl, rfl⟩ : (5 : UInt64) = first ∧ (6 : UInt64) = last := by
    simpa [pastEndErrors] using shown
  exact ⟨compile_pastEnd, rfl, by decide, empty.mpr ⟨by decide, .inl (by decide)⟩⟩

/-- **A range past the end can have a frame:** one unit behind the end it is on the last line, and
from 2⁶³ on it is on the first line. -/
theorem frame_past_end_is_shown :
    let shown := (returns pastEndReport).compiler.codeFrame "abc"
    TemplateOutput.parse pastEndReport =
        .ok { code := "c", tips := [], errors := pastEndErrors } ∧
      (returns pastEndReport).compiler.compile pastEndOptions =
        .ok { code := "c", tips := [], errors := pastEndErrors } ∧
      (Diagnostic.ranged "m" 4 5 ∈ pastEndErrors ∧ units "abc".toList < 4 ∧
        shown 4 5 = "1  |  abc\n   |      " ∧ shown 4 5 ≠ "") ∧
      Diagnostic.ranged "m" 18446744073709551615 18446744073709551615 ∈ pastEndErrors ∧
        units "abc".toList < 18446744073709551615 ∧
        shown 18446744073709551615 18446744073709551615 = "1  |  abc\n   |  " ∧
        shown 18446744073709551615 18446744073709551615 ≠ "" :=
  ⟨parse_pastEndReport, compile_pastEnd, by decide +kernel, by decide +kernel⟩

end RenderLink.Bundle
