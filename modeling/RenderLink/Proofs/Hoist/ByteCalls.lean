/-
**Calls on bytes.**

A byte of a character that is not ASCII is no quotation mark, backslash or parenthesis. So a reader
of bytes is behind every character in the state of a reader of characters, a call is read on bytes
as on characters, and its literal is cut out between characters.

* `literalStop?_char`: **one character** of a literal, on its bytes.
* `literalStop?_encode`, `closing?_encode`: a literal, and a literal in parentheses.
* `byteCall?_encode`: **a call is read on bytes as on characters**, and no cut is refused.
-/

import RenderLink.Hoist.ByteScanner
import RenderLink.Proofs.Hoist.Grammar
import RenderLink.Proofs.Text.Utf8

namespace RenderLink

open Text

variable {mark c : Char} {state : LiteralState}

/-! ### Bytes of characters -/

theorem byteOf_inj {c d : Char} (ascii : c.toNat < 0x80) (ascii' : d.toNat < 0x80) :
    byteOf c = byteOf d ↔ c = d := by
  refine ⟨fun same => ?_, fun same => same ▸ rfl⟩
  have numbers := congrArg UInt8.toNat same
  rw [byteOf, byteOf, toNat_ofNat (by omega), toNat_ofNat (by omega)] at numbers
  exact Char.toNat_inj.1 numbers

/-- A byte that is not ASCII is that of no ASCII character. -/
theorem ne_byteOf {c : Char} {byte : UInt8} (ascii : c.toNat < 0x80) (high : 0x80 ≤ byte.toNat) :
    byte ≠ byteOf c := by
  rintro rfl
  rw [byteOf, toNat_ofNat (by omega)] at high
  omega

/-- The first byte of a character is that of an ASCII character only if it is that character. -/
theorem exists_head (c : Char) (text : List Char) :
    ∃ byte, (encode (c :: text)).head? = some byte ∧
      ∀ d : Char, d.toNat < 0x80 → (byte = byteOf d ↔ c = d) := by
  by_cases ascii : c.toNat < 0x80
  · exact ⟨byteOf c, by simp [utf8EncodeChar_ascii ascii, byteOf], fun d => byteOf_inj ascii⟩
  · obtain ⟨first, others, bytes, high, -⟩ := utf8EncodeChar_wide (Nat.not_lt.1 ascii)
    refine ⟨first, by simp [bytes], fun d ascii' => ⟨fun same => ?_, ?_⟩⟩
    · exact absurd same (ne_byteOf ascii' (by omega))
    · rintro rfl
      exact absurd ascii' ascii

/-- The byte at the end of some text is the first one of the text behind it. -/
theorem getElem?_encode (before rest : List Char) :
    (encode (before ++ rest))[byteLength before]? = (encode rest).head? := by
  rw [encode_append, List.getElem?_append_right (by simp), length_encode, Nat.sub_self,
    List.head?_eq_getElem?]

/-- A text goes on with an ASCII character exactly if its bytes go on with the byte of it. -/
theorem getElem?_encode_eq_iff (ascii : c.toNat < 0x80) (before rest : List Char) :
    (encode (before ++ rest))[byteLength before]? = some (byteOf c) ↔ rest.head? = some c := by
  rw [getElem?_encode]
  cases rest with
  | nil => simp
  | cons d rest =>
    obtain ⟨byte, first, same⟩ := exists_head d rest
    rw [first, Option.some_inj, same c ascii, List.head?_cons, Option.some_inj]

/-! ### Literals on bytes -/

section Literals

variable {before others after : List UInt8}

theorem literalStop?_closed (source : List UInt8) (mark : UInt8) (place : Nat) :
    literalStop? source mark .closed place = some place := by
  rw [literalStop?, if_pos rfl]

/-- A reader that stands at a byte reads it. -/
theorem literalStop?_byte {mark byte : UInt8} (opened : state ≠ .closed) :
    literalStop? (before ++ byte :: after) mark state before.length =
      literalStop? (before ++ byte :: after) mark (state.stepByte mark byte)
        (before.length + 1) := by
  have there : (before ++ byte :: after)[before.length]? = some byte := by simp
  rw [literalStop?, if_neg opened]
  split
  · next missing =>
    rw [there] at missing
    cases missing
  · next found =>
    rw [there] at found
    cases found
    rfl

/-- Bytes that go on with a character leave a reader inside of the literal. -/
theorem literalStop?_continued (before after : List UInt8) (ascii : mark.toNat < 0x80)
    (continued : ∀ byte ∈ others, isContinuation byte = true) :
    literalStop? (before ++ others ++ after) (byteOf mark) .inside before.length =
      literalStop? (before ++ others ++ after) (byteOf mark) .inside
        (before.length + others.length) := by
  induction others generalizing before with
  | nil => simp
  | cons byte others ih =>
    obtain ⟨here, later⟩ := List.forall_mem_cons.1 continued
    have high := ((isContinuation_iff byte).1 here).1
    have step : LiteralState.inside.stepByte (byteOf mark) byte = .inside := by
      rw [LiteralState.stepByte, if_neg (ne_byteOf (by decide) high), if_neg (ne_byteOf ascii high)]
    have further := ih (before ++ [byte]) later
    rw [List.length_append, List.length_singleton] at further
    rw [List.append_assoc, List.cons_append, literalStop?_byte (by decide), step]
    simpa [Nat.add_assoc, Nat.add_comm, Nat.add_left_comm] using further

theorem stepByte_byteOf (ascii : mark.toNat < 0x80) (narrow : c.toNat < 0x80) :
    state.stepByte (byteOf mark) (byteOf c) = state.step mark c := by
  have backslash : byteOf c = byteOf '\\' ↔ c = '\\' := byteOf_inj narrow (by decide)
  have quotation : byteOf c = byteOf mark ↔ c = mark := byteOf_inj narrow ascii
  cases state <;> simp only [LiteralState.stepByte, LiteralState.step, backslash, quotation]

/-- **Behind every character a reader of bytes is in the state of a reader of characters.** -/
theorem literalStop?_char (before after : List UInt8) (ascii : mark.toNat < 0x80)
    (opened : state ≠ .closed) (c : Char) :
    literalStop? (before ++ String.utf8EncodeChar c ++ after) (byteOf mark) state before.length =
      literalStop? (before ++ String.utf8EncodeChar c ++ after) (byteOf mark) (state.step mark c)
        (before.length + c.utf8Size) := by
  rw [← String.length_utf8EncodeChar]
  by_cases narrow : c.toNat < 0x80
  · rw [utf8EncodeChar_ascii narrow, List.append_assoc, List.singleton_append,
      literalStop?_byte opened, ← byteOf, stepByte_byteOf ascii narrow]
    rfl
  · obtain ⟨first, others, bytes, high, continued⟩ := utf8EncodeChar_wide (Nat.not_lt.1 narrow)
    have other : ∀ d : Char, d.toNat < 0x80 → c ≠ d := fun d isAscii same => narrow (same ▸ isAscii)
    have onBytes : state.stepByte (byteOf mark) first = .inside := by
      cases state with
      | closed => exact absurd rfl opened
      | escaped => rfl
      | inside =>
        rw [LiteralState.stepByte, if_neg (ne_byteOf (by decide) (by omega)),
          if_neg (ne_byteOf ascii (by omega))]
    have onCharacters : state.step mark c = .inside := by
      cases state with
      | closed => exact absurd rfl opened
      | escaped => rfl
      | inside =>
        rw [LiteralState.step, if_neg (other _ (by decide)), if_neg (other mark ascii)]
    have further := literalStop?_continued (before ++ [first]) after ascii continued
    rw [bytes, onCharacters, List.append_assoc, List.cons_append, literalStop?_byte opened, onBytes]
    simpa [Nat.add_assoc, Nat.add_comm, Nat.add_left_comm] using further

/-- A literal ends on bytes where it ends on characters. -/
theorem literalStop?_encode (ascii : mark.toNat < 0x80) (front text : List Char)
    (state : LiteralState) :
    literalStop? (encode (front ++ text)) (byteOf mark) state (byteLength front) =
      (literalFrom? mark state text).map fun (body, _) => byteLength (front ++ body) := by
  induction text generalizing front state with
  | nil =>
    by_cases closed : state = .closed
    · simp [closed, literalStop?_closed, literalFrom?_closed]
    · have missing : (encode (front ++ []))[byteLength front]? = none := by simp
      rw [literalFrom?_nil closed, literalStop?, if_neg closed]
      split
      · rfl
      · next found =>
        rw [missing] at found
        cases found
  | cons c text ih =>
    by_cases closed : state = .closed
    · simp [closed, literalStop?_closed, literalFrom?_closed]
    · have bytes : encode (front ++ c :: text) =
          encode front ++ String.utf8EncodeChar c ++ encode text := by simp
      have step := literalStop?_char (encode front) (encode text) ascii closed c
      have behind : byteLength front + c.utf8Size = byteLength (front ++ [c]) := by simp
      rw [length_encode, ← bytes, behind, List.append_cons, ih] at step
      rw [List.append_cons, step, literalFrom?_cons closed, Option.map_map]
      simp [Function.comp_def]

/-- A literal that begins behind some text ends on bytes where it ends on characters. -/
theorem quotedStop?_encode (front text : List Char) :
    quotedStop? (encode (front ++ text)) (byteLength front) =
      (literal? text).map fun (literal, _) => byteLength (front ++ literal) := by
  rw [quotedStop?, getElem?_encode]
  cases text with
  | nil => rfl
  | cons mark text =>
    obtain ⟨byte, first, same⟩ := exists_head mark text
    have kinds : (byte = byteOf '"' ∨ byte = byteOf '\x27') ↔ isQuotationMark mark = true := by
      rw [same _ (by decide), same _ (by decide), isQuotationMark_iff]
    rw [first, literal?]
    simp only [kinds]
    split
    · next quotation =>
      have ascii : mark.toNat < 0x80 := by
        rcases isQuotationMark_iff.1 quotation with rfl | rfl <;> decide
      have size : mark.utf8Size = 1 := by
        rw [← String.length_utf8EncodeChar, utf8EncodeChar_ascii ascii]
        rfl
      have inner := literalStop?_encode ascii (front ++ [mark]) text .inside
      rw [(same mark ascii).2 rfl]
      rw [byteLength_append, byteLength_cons, size, byteLength_nil, ← List.append_cons] at inner
      rw [inner, Option.map_map]
      simp [Function.comp_def]
    · rfl

end Literals

/-! ### Calls on bytes -/

/-- The literal in parentheses that the text begins with, and the text behind them. -/
def arguments? (text : List Char) : Option (List Char × List Char) := do
  let (literal, closing) ← literal? (← afterWord? ['('] text)
  let rest ← afterWord? [')'] closing
  return (literal, rest)

theorem call?_append (callee arguments : List Char) :
    call? callee (callee ++ arguments) = arguments? arguments := by
  rw [call?, afterWord?_eq_some_iff.2 rfl]
  rfl

theorem afterWord?_singleton (c : Char) (text : List Char) :
    afterWord? [c] text = if text.head? = some c then some text.tail else none := by
  cases text with
  | nil => rfl
  | cons d text => simp [afterWord?, eq_comm]

/-- A literal in parentheses is closed on bytes where it is on characters. -/
theorem closing?_encode (front text : List Char) :
    closing? (encode (front ++ text)) (byteLength front) =
      (arguments? text).map fun (literal, _) => byteLength (front ++ '(' :: literal) := by
  have opens := getElem?_encode_eq_iff (c := '(') (by decide) front text
  rw [closing?, arguments?, afterWord?_singleton]
  simp only [opens]
  split
  · next opening =>
    obtain ⟨quoted, rfl⟩ := List.head?_eq_some_iff.1 opening
    have inside := quotedStop?_encode (front ++ ['(']) quoted
    have behind : byteLength (front ++ ['(']) = byteLength front + 1 := by simp; rfl
    rw [behind, ← List.append_cons] at inside
    rw [inside, List.tail_cons, Option.bind_eq_bind, Option.bind_some]
    cases found : literal? quoted with
    | none => rfl
    | some parts =>
      obtain ⟨literal, closing⟩ := parts
      have closes := getElem?_encode_eq_iff (c := ')') (by decide) (front ++ '(' :: literal) closing
      rw [List.append_assoc, List.cons_append, literal?_eq found] at closes
      simp only [Option.map_some, Option.filter_some, List.append_assoc, List.cons_append,
        List.nil_append, closes, Option.bind_eq_bind, Option.bind_some, afterWord?_singleton]
      by_cases closed : closing.head? = some ')' <;> simp [closed]
  · rfl

theorem cut_before (before rest : List Char) :
    cut (encode (before ++ rest)) 0 (byteLength before) = .ok (encode before) := by
  simpa using cut_encode [] before rest

theorem cut_behind (before rest : List Char) :
    cut (encode (before ++ rest)) (byteLength before) (encode (before ++ rest)).length =
      .ok (encode rest) := by
  simpa using cut_encode before rest []

/-- **A call is read on bytes as on characters**, and no cut is refused. -/
theorem byteCall?_encode {callee : List Char} (before rest : List Char) (here : callee <+: rest) :
    byteCall? (encode callee) (encode (before ++ rest)) (byteLength before) =
      .ok (((Cursor.between before rest).call? callee).map fun (literal, _) =>
        (Cursor.between before rest).site callee literal) := by
  obtain ⟨arguments, rfl⟩ := here
  rw [byteCall?, cut_before, Cursor.call?]
  simp only [bind, Except.bind, decodeLossy_encode, Cursor.between, call?_append]
  split
  · rfl
  rw [length_encode, ← byteLength_append, ← List.append_assoc, closing?_encode]
  cases found : arguments? arguments with
  | none => rfl
  | some parts =>
    obtain ⟨literal, rest⟩ := parts
    have whole : arguments = '(' :: (literal ++ ')' :: rest) := by
      have text := (call?_eq ((call?_append callee arguments).trans found)).symm
      simpa [callText] using text
    have literalCut := cut_encode (before ++ callee ++ ['(']) literal (')' :: rest)
    have start : byteLength (before ++ callee ++ ['(']) = byteLength (before ++ callee) + 1 := by
      rw [byteLength_append]
      rfl
    have stop : byteLength (before ++ callee ++ '(' :: literal) =
        byteLength (before ++ callee) + 1 + byteLength literal := by
      rw [← start, ← byteLength_append, List.append_assoc _ ['('] literal]
      rfl
    have text : before ++ callee ++ ['('] ++ literal ++ ')' :: rest =
        before ++ callee ++ arguments := by
      rw [whole]
      simp
    rw [start, text, ← stop] at literalCut
    simp only [Option.map_some, literalCut, decodeLossy_encode, Cursor.site]
    rw [stop, byteLength_append]
    simp only [pure, Except.pure, Except.ok.injEq, Option.some.injEq, CallSite.mk.injEq, true_and,
      and_true]
    omega

end RenderLink
