/-
**UTF-8, written and read back.**

The first byte of a character continues no other one, and every further byte does. So a text is read
back from its bytes, it can be cut exactly between characters, and a byte below 0x80 stands in the
bytes exactly for its character.

* `decodeFrom_encode`: **a text is read back from its bytes**, strictly and lossily alike.
* `isBoundary_encode_iff`: **the boundaries of a text** are the ends of its beginnings.
* `encode_isPrefix_iff`: a text begins with a word exactly if its bytes do.
* `mem_encode_iff`: an ASCII character stands in a text exactly if its byte stands in the bytes.
-/

import RenderLink.Text.Cut
import Mathlib.Data.List.Basic
import Mathlib.Tactic.SplitIfs

namespace RenderLink.Text

/-! ### Writing -/

@[simp] theorem encode_nil : encode [] = [] := rfl

@[simp] theorem encode_cons (c : Char) (text : List Char) :
    encode (c :: text) = String.utf8EncodeChar c ++ encode text := rfl

@[simp] theorem encode_append (first second : List Char) :
    encode (first ++ second) = encode first ++ encode second :=
  List.flatMap_append

@[simp] theorem length_encode (text : List Char) : (encode text).length = byteLength text := by
  induction text with
  | nil => rfl
  | cons c text ih => simp [ih, String.length_utf8EncodeChar]

/-! ### The bytes of a character -/

theorem toNat_ofNat {n : Nat} (small : n < 256) : (UInt8.ofNat n).toNat = n := by
  simp [UInt8.toNat_ofNat', Nat.mod_eq_of_lt small]

theorem isContinuation_iff (byte : UInt8) :
    isContinuation byte = true ↔ 0x80 ≤ byte.toNat ∧ byte.toNat < 0xC0 := by
  simp [isContinuation, UInt8.le_iff_toNat_le, UInt8.lt_iff_toNat_lt]

theorem utf8EncodeChar_ascii {c : Char} (ascii : c.toNat < 0x80) :
    String.utf8EncodeChar c = [UInt8.ofNat c.toNat] :=
  if_pos (Nat.le_of_lt_succ ascii)

/-- A character that is not ASCII has a first byte of its own and then bytes that continue it. -/
theorem utf8EncodeChar_wide {c : Char} (wide : 0x80 ≤ c.toNat) :
    ∃ first others, String.utf8EncodeChar c = first :: others ∧
      0xC0 ≤ first.toNat ∧ ∀ byte ∈ others, isContinuation byte = true := by
  have above : ¬c.val.toNat ≤ 127 := Nat.not_le.2 wide
  have further : ∀ n, isContinuation (UInt8.ofNat (n % 64 + 128)) = true := fun n => by
    rw [isContinuation_iff, toNat_ofNat (by omega)]
    omega
  unfold String.utf8EncodeChar
  simp only [if_neg above]
  split_ifs with two three
  all_goals
    refine ⟨_, _, rfl, ?_, ?_⟩
    · rw [toNat_ofNat (by omega)]
      omega
    · simp only [List.forall_mem_cons, further, List.not_mem_nil, false_implies, implies_true,
        and_self]

/-- The first byte of a character continues nothing, and the others do. -/
theorem utf8EncodeChar_shape (c : Char) :
    ∃ first others, String.utf8EncodeChar c = first :: others ∧
      isContinuation first = false ∧ ∀ byte ∈ others, isContinuation byte = true := by
  have begins : ∀ byte : UInt8, byte.toNat < 0x80 ∨ 0xC0 ≤ byte.toNat →
      isContinuation byte = false := fun byte range => by
    rw [Bool.eq_false_iff, Ne, isContinuation_iff]
    omega
  by_cases ascii : c.toNat < 0x80
  · refine ⟨_, [], utf8EncodeChar_ascii ascii, begins _ (.inl ?_), by simp⟩
    rwa [toNat_ofNat (by omega)]
  · obtain ⟨first, others, bytes, high, continued⟩ := utf8EncodeChar_wide (Nat.not_lt.1 ascii)
    exact ⟨first, others, bytes, begins _ (.inr high), continued⟩

/-! ### Reading -/

/-! A first byte names the state behind it, by the number of bytes that follow. -/

theorem lead_one {n : Nat} (high : n < 0x80) :
    lead (UInt8.ofNat n) = (none, [some (Char.ofNat n)]) := by
  simp (disch := omega) only [lead, toNat_ofNat, if_pos]

theorem lead_two {n : Nat} (low : 0xC2 ≤ n) (high : n < 0xE0) :
    lead (UInt8.ofNat n) =
      (some ⟨0, UInt8.ofNat 0x80, UInt8.ofNat 0xBF, n - 0xC0⟩, []) := by
  simp (disch := omega) only [lead, toNat_ofNat, if_neg, if_pos]
  rfl

theorem lead_three {n : Nat} (low : 0xE0 ≤ n) (high : n < 0xF0) :
    lead (UInt8.ofNat n) =
      (some ⟨1, UInt8.ofNat (if n = 0xE0 then 0xA0 else 0x80),
        UInt8.ofNat (if n = 0xED then 0x9F else 0xBF), n - 0xE0⟩, []) := by
  simp (disch := omega) only [lead, toNat_ofNat, if_neg]
  split_ifs <;> first | omega | simp_all

theorem lead_four {n : Nat} (low : 0xF0 ≤ n) (high : n < 0xF5) :
    lead (UInt8.ofNat n) =
      (some ⟨2, UInt8.ofNat (if n = 0xF0 then 0x90 else 0x80),
        UInt8.ofNat (if n = 0xF4 then 0x8F else 0xBF), n - 0xF0⟩, []) := by
  simp (disch := omega) only [lead, toNat_ofNat, if_neg]
  split_ifs <;> first | omega | simp_all

theorem decodeFrom_first {byte : UInt8} {begun : Partial} (leads : lead byte = (some begun, []))
    (rest : List UInt8) : decodeFrom none (byte :: rest) = decodeFrom (some begun) rest := by
  simp [decodeFrom, leads]

section Continued

variable {remaining low high bits n : Nat}

theorem within_ofNat (above : low ≤ n) (below : n ≤ high) (small : high < 256) :
    UInt8.ofNat low ≤ UInt8.ofNat n ∧ UInt8.ofNat n ≤ UInt8.ofNat high := by
  simp only [UInt8.le_iff_toNat_le, toNat_ofNat (show low < 256 by omega),
    toNat_ofNat (show n < 256 by omega), toNat_ofNat small]
  exact ⟨above, below⟩

theorem decodeFrom_last (above : low ≤ n) (below : n ≤ high) (small : high < 256)
    (rest : List UInt8) :
    decodeFrom (some ⟨0, UInt8.ofNat low, UInt8.ofNat high, bits⟩) (UInt8.ofNat n :: rest) =
      some (Char.ofNat (bits * 64 + (n - 0x80))) :: decodeFrom none rest := by
  simp only [decodeFrom, if_pos (within_ofNat above below small),
    toNat_ofNat (show n < 256 by omega)]

theorem decodeFrom_further (above : low ≤ n) (below : n ≤ high) (small : high < 256)
    (rest : List UInt8) :
    decodeFrom (some ⟨remaining + 1, UInt8.ofNat low, UInt8.ofNat high, bits⟩)
        (UInt8.ofNat n :: rest) =
      decodeFrom (some ⟨remaining, UInt8.ofNat 0x80, UInt8.ofNat 0xBF, bits * 64 + (n - 0x80)⟩)
        rest := by
  simp only [decodeFrom, if_pos (within_ofNat above below small),
    toNat_ofNat (show n < 256 by omega)]
  rfl

end Continued

/-- The bytes of a character are read as that character. -/
theorem decodeFrom_utf8EncodeChar (c : Char) (rest : List UInt8) :
    decodeFrom none (String.utf8EncodeChar c ++ rest) = some c :: decodeFrom none rest := by
  have valid : c.val.toNat < 0xD800 ∨ 0xDFFF < c.val.toNat ∧ c.val.toNat < 0x110000 := c.valid
  have whole : ∀ n, n = c.val.toNat → Char.ofNat n = c := fun n same => same ▸ Char.ofNat_toNat c
  unfold String.utf8EncodeChar
  generalize c.val.toNat = v at valid whole
  simp only
  -- the next bytes of three and four keep the number out of the surrogates and below the limit
  split_ifs with one two three <;> simp only [List.cons_append, List.nil_append]
  · simp [decodeFrom, lead_one (show v < 0x80 by omega), whole v rfl]
  · rw [decodeFrom_first (lead_two (by omega) (by omega)),
      decodeFrom_last (by omega) (by omega) (by omega), whole _ (by omega)]
  · rw [decodeFrom_first (lead_three (by omega) (by omega)),
      decodeFrom_further (by split_ifs <;> omega) (by split_ifs <;> omega) (by split_ifs <;> omega),
      decodeFrom_last (by omega) (by omega) (by omega), whole _ (by omega)]
  · rw [decodeFrom_first (lead_four (by omega) (by omega)),
      decodeFrom_further (by split_ifs <;> omega) (by split_ifs <;> omega) (by split_ifs <;> omega),
      decodeFrom_further (by omega) (by omega) (by omega),
      decodeFrom_last (by omega) (by omega) (by omega), whole _ (by omega)]

/-- **A text is read back from its bytes**, with any bytes behind it. -/
theorem decodeFrom_encode (text : List Char) (rest : List UInt8) :
    decodeFrom none (encode text ++ rest) = text.map some ++ decodeFrom none rest := by
  induction text with
  | nil => rfl
  | cons c text ih =>
    rw [encode_cons, List.append_assoc, decodeFrom_utf8EncodeChar, ih, List.map_cons,
      List.cons_append]

theorem decodeLossy_encode (text : List Char) : decodeLossy (encode text) = text := by
  have read := decodeFrom_encode text []
  rw [List.append_nil, decodeFrom, List.append_nil] at read
  rw [decodeLossy, read, List.map_map]
  exact List.map_id text

/-- A text begins with a word exactly if its bytes begin with those of the word. -/
theorem encode_isPrefix_iff {word text : List Char} :
    encode word <+: encode text ↔ word <+: text := by
  constructor
  · rintro ⟨rest, whole⟩
    have read := congrArg (decodeFrom none) whole
    rw [decodeFrom_encode, ← List.append_nil (encode text), decodeFrom_encode, decodeFrom,
      List.append_nil] at read
    have begins : word.map some <+: text.map some := ⟨_, read⟩
    exact (List.prefix_map_iff_of_injective fun _ _ => Option.some.inj).1 begins
  · rintro ⟨rest, rfl⟩
    exact ⟨encode rest, (encode_append word rest).symm⟩

/-- An ASCII character stands in a text exactly if its byte stands in the bytes of the text. -/
theorem mem_encode_iff {c : Char} (ascii : c.toNat < 0x80) {text : List Char} :
    UInt8.ofNat c.toNat ∈ encode text ↔ c ∈ text := by
  induction text with
  | nil => simp
  | cons d text ih =>
    have here : UInt8.ofNat c.toNat ∈ String.utf8EncodeChar d ↔ c = d := by
      constructor
      · intro member
        by_cases narrow : d.toNat < 0x80
        · rw [utf8EncodeChar_ascii narrow, List.mem_singleton] at member
          have same := congrArg UInt8.toNat member
          rw [toNat_ofNat (by omega), toNat_ofNat (by omega)] at same
          exact Char.toNat_inj.1 same
        · obtain ⟨first, others, bytes, high, continued⟩ :=
            utf8EncodeChar_wide (Nat.not_lt.1 narrow)
          have number := toNat_ofNat (show c.toNat < 256 by omega)
          rw [bytes, List.mem_cons] at member
          rcases member with rfl | member
          · omega
          · have := (isContinuation_iff _).1 (continued _ member)
            omega
      · rintro rfl
        simp [utf8EncodeChar_ascii ascii]
    rw [encode_cons, List.mem_append, here, ih, List.mem_cons]

/-! ### Cutting -/

@[simp] theorem isBoundary_zero {text : List Char} : isBoundary (encode text) 0 = true := by
  cases text with
  | nil => rfl
  | cons c text =>
    obtain ⟨first, others, bytes, begins, -⟩ := utf8EncodeChar_shape c
    simp [isBoundary, bytes, begins]

theorem isBoundary_append (first second : List UInt8) (offset : Nat) :
    isBoundary (first ++ second) (first.length + offset) = isBoundary second offset := by
  rw [isBoundary, List.getElem?_append_right (Nat.le_add_right ..), Nat.add_sub_cancel_left]
  simp [isBoundary]

/-- **The boundaries of a text** are the offsets at which a beginning of it ends. -/
theorem isBoundary_encode_iff {text : List Char} {offset : Nat} :
    isBoundary (encode text) offset = true ↔
      ∃ before rest, before ++ rest = text ∧ byteLength before = offset := by
  constructor
  · induction text generalizing offset with
    | nil =>
      intro boundary
      have start : offset = 0 := of_decide_eq_true boundary
      exact ⟨[], [], rfl, start.symm⟩
    | cons c text ih =>
      intro boundary
      obtain ⟨first, others, bytes, -, continued⟩ := utf8EncodeChar_shape c
      have size : (first :: others).length = c.utf8Size :=
        bytes ▸ String.length_utf8EncodeChar c
      rcases Nat.eq_zero_or_pos offset with rfl | positive
      · exact ⟨[], c :: text, rfl, rfl⟩
      rcases Nat.lt_or_ge offset c.utf8Size with inside | behind
      · -- a byte of the same character stands at the offset
        obtain ⟨place, rfl⟩ := Nat.exists_eq_succ_of_ne_zero (Nat.ne_of_gt positive)
        have short : place < others.length := by
          rw [List.length_cons] at size
          omega
        have byte : (encode (c :: text))[place + 1]? = some others[place] := by
          rw [encode_cons, bytes, List.cons_append, List.getElem?_cons_succ,
            List.getElem?_append_left short, List.getElem?_eq_getElem short]
        simp only [isBoundary, Nat.succ_eq_add_one, byte, continued _ (List.getElem_mem short)]
          at boundary
        cases boundary
      · obtain ⟨later, rfl⟩ := Nat.exists_eq_add_of_le behind
        rw [encode_cons, ← String.length_utf8EncodeChar, isBoundary_append] at boundary
        obtain ⟨before, rest, whole, length⟩ := ih boundary
        exact ⟨c :: before, rest, by rw [List.cons_append, whole], by rw [byteLength_cons, length]⟩
  · rintro ⟨before, rest, rfl, rfl⟩
    have boundary := isBoundary_append (encode before) (encode rest) 0
    rw [isBoundary_zero, Nat.add_zero, length_encode, ← encode_append] at boundary
    exact boundary

/-- A text can be cut between its characters. -/
theorem cut_encode (before middle rest : List Char) :
    cut (encode (before ++ middle ++ rest)) (byteLength before)
        (byteLength before + byteLength middle) = .ok (encode middle) := by
  have start : isBoundary (encode (before ++ middle ++ rest)) (byteLength before) = true :=
    isBoundary_encode_iff.2 ⟨before, middle ++ rest, (List.append_assoc ..).symm, rfl⟩
  have stop : isBoundary (encode (before ++ middle ++ rest))
      (byteLength before + byteLength middle) = true :=
    isBoundary_encode_iff.2 ⟨before ++ middle, rest, rfl, byteLength_append before middle⟩
  have taken : ((encode (before ++ middle ++ rest)).take
      (byteLength before + byteLength middle)).drop (byteLength before) = encode middle := by
    rw [← byteLength_append, encode_append, ← length_encode (before ++ middle), List.take_left,
      encode_append, ← length_encode before, List.drop_left]
  rw [cut, if_pos ⟨Nat.le_add_right .., start, stop⟩, taken]

end RenderLink.Text
