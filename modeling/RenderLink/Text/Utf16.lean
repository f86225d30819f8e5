/-
**UTF-16 offsets and character offsets.**

A script counts a text in UTF-16 units, the rest of the library in characters. `charOffset` goes
from the first count to the second.

* `units_append`: unit counts add up.
* `charOffset_units`: the unit count of a beginning of the text converts to its character count.
-/

namespace RenderLink.Text

/-- The number of UTF-16 units of a character: two beyond the basic plane, else one. -/
def unitCount (c : Char) : Nat :=
  if c.toNat < 0x10000 then 1 else 2

/-- The number of UTF-16 units of a text. -/
def units : List Char → Nat
  | [] => 0
  | c :: rest => unitCount c + units rest

@[simp] theorem units_nil : units [] = 0 := rfl

@[simp] theorem units_cons (c : Char) (rest : List Char) :
    units (c :: rest) = unitCount c + units rest := rfl

theorem unitCount_pos (c : Char) : 0 < unitCount c := by
  unfold unitCount
  split <;> decide

@[simp] theorem units_append (first second : List Char) :
    units (first ++ second) = units first + units second := by
  induction first with
  | nil => simp
  | cons c rest ih => simp [ih, Nat.add_assoc]

/-- The number of characters before a UTF-16 offset. An offset inside a character counts that
character, and one past the end keeps its distance from the end. -/
def charOffset : List Char → Nat → Nat
  | [], offset => offset
  | _ :: _, 0 => 0
  | c :: rest, offset + 1 => charOffset rest (offset + 1 - unitCount c) + 1

@[simp] theorem charOffset_zero (text : List Char) : charOffset text 0 = 0 := by
  cases text <;> rfl

/-- The unit count of a beginning of the text converts to its character count. -/
theorem charOffset_units (before after : List Char) :
    charOffset (before ++ after) (units before) = before.length := by
  induction before with
  | nil => simp
  | cons c rest ih =>
    have positive := unitCount_pos c
    obtain ⟨count, counted⟩ : ∃ count, unitCount c + units rest = count + 1 :=
      ⟨unitCount c + units rest - 1, by omega⟩
    have remaining : count + 1 - unitCount c = units rest := by omega
    simp [counted, charOffset, remaining, ih]

/-! ### Units -/

/-- The UTF-16 units of a character: itself, or a high and a low surrogate. -/
def encodeUnits (c : Char) : List Nat :=
  if c.toNat < 0x10000 then [c.toNat]
  else [0xD800 + (c.toNat - 0x10000) / 0x400, 0xDC00 + (c.toNat - 0x10000) % 0x400]

/-- The UTF-16 units of a text. -/
def toUnits (text : List Char) : List Nat :=
  text.flatMap encodeUnits

end RenderLink.Text
