/-
**UTF-8: byte lengths, writing, reading.**

Text is a list of characters, a stored text a list of bytes. Reading is one machine over the bytes
(`decodeFrom`) whose output marks each maximal run of bytes that begins no character with `none`;
the strict and the lossy readings differ only in what they make of such a mark.

* `byteLength_append`: byte lengths add up, so an offset is the length of what stands before it.
* `byteLength_pos`: a text that is not empty takes at least one byte.
* `dropBytes_append`: the length of a beginning is the offset of its end.
-/

namespace RenderLink.Text

/-- The number of bytes of a character list in UTF-8. -/
def byteLength : List Char → Nat
  | [] => 0
  | c :: rest => c.utf8Size + byteLength rest

@[simp] theorem byteLength_nil : byteLength [] = 0 := rfl

@[simp] theorem byteLength_cons (c : Char) (rest : List Char) :
    byteLength (c :: rest) = c.utf8Size + byteLength rest := rfl

@[simp] theorem byteLength_append (first second : List Char) :
    byteLength (first ++ second) = byteLength first + byteLength second := by
  induction first with
  | nil => simp
  | cons c rest ih => simp [ih, Nat.add_assoc]

/-- A text that is not empty takes at least one byte. -/
theorem byteLength_pos {text : List Char} (nonempty : text ≠ []) : 0 < byteLength text := by
  cases text with
  | nil => exact absurd rfl nonempty
  | cons c rest =>
    rw [byteLength_cons]
    exact Nat.add_pos_left c.utf8Size_pos _

/-- The characters that end at a byte offset or before it. -/
def takeBytes (count : Nat) : List Char → List Char
  | [] => []
  | c :: rest => if c.utf8Size ≤ count then c :: takeBytes (count - c.utf8Size) rest else []

/-- The characters that begin at a byte offset or behind it. -/
def dropBytes (count : Nat) : List Char → List Char
  | [] => []
  | c :: rest => if count = 0 then c :: rest else dropBytes (count - c.utf8Size) rest

/-- The length of a beginning is the offset of its end. -/
theorem dropBytes_append (first second : List Char) :
    dropBytes (byteLength first) (first ++ second) = second := by
  induction first with
  | nil => cases second <;> simp [dropBytes]
  | cons c rest ih =>
    have positive := c.utf8Size_pos
    have nonzero : c.utf8Size + byteLength rest ≠ 0 := by omega
    have remaining : c.utf8Size + byteLength rest - c.utf8Size = byteLength rest := by omega
    rw [List.cons_append, dropBytes, byteLength_cons, if_neg nonzero, remaining, ih]

/-- The bytes of a character list in UTF-8. -/
def encode (text : List Char) : List UInt8 :=
  text.flatMap String.utf8EncodeChar

/-! ### Reading -/

/-- A character whose first bytes have been read. -/
structure Partial where
  /-- How many bytes follow the next one. -/
  remaining : Nat
  /-- The least next byte that continues the character. -/
  low : UInt8
  /-- The greatest next byte that continues the character. -/
  high : UInt8
  bits : Nat

/-- What a first byte amounts to: the state after it and the characters it completes. A byte that
can begin no character completes the mark of an invalid run. -/
def lead (byte : UInt8) : Option Partial × List (Option Char) :=
  let bits := byte.toNat
  if bits < 0x80 then (none, [some (Char.ofNat bits)])
  else if bits < 0xC2 then (none, [none])
  else if bits < 0xE0 then (some ⟨0, 0x80, 0xBF, bits - 0xC0⟩, [])
  else if bits = 0xE0 then (some ⟨1, 0xA0, 0xBF, 0⟩, [])
  else if bits = 0xED then (some ⟨1, 0x80, 0x9F, 0xD⟩, [])
  else if bits < 0xF0 then (some ⟨1, 0x80, 0xBF, bits - 0xE0⟩, [])
  else if bits = 0xF0 then (some ⟨2, 0x90, 0xBF, 0⟩, [])
  else if bits < 0xF4 then (some ⟨2, 0x80, 0xBF, bits - 0xF0⟩, [])
  else if bits = 0xF4 then (some ⟨2, 0x80, 0x8F, 4⟩, [])
  else (none, [none])

/-- The characters of a list of bytes, with `none` for each maximal run that begins no character. -/
def decodeFrom : Option Partial → List UInt8 → List (Option Char)
  | none, [] => []
  | some _, [] => [none]
  | none, byte :: rest =>
    let (state, completed) := lead byte
    completed ++ decodeFrom state rest
  | some begun, byte :: rest =>
    if begun.low ≤ byte ∧ byte ≤ begun.high then
      let bits := begun.bits * 64 + (byte.toNat - 0x80)
      match begun.remaining with
      | 0 => some (Char.ofNat bits) :: decodeFrom none rest
      | remaining + 1 => decodeFrom (some ⟨remaining, 0x80, 0xBF, bits⟩) rest
    else
      let (state, completed) := lead byte
      none :: completed ++ decodeFrom state rest

/-- The text that bytes hold, if every byte belongs to a character. -/
def decode? (bytes : List UInt8) : Option (List Char) :=
  (decodeFrom none bytes).mapM id

/-- The text that bytes hold, with U+FFFD for each maximal run that begins no character. -/
def decodeLossy (bytes : List UInt8) : List Char :=
  (decodeFrom none bytes).map fun c => c.getD '\uFFFD'

end RenderLink.Text
