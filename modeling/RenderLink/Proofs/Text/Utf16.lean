/-
**UTF-16 offsets and character offsets, both ways.**

Let U(k) be the number of UTF-16 units of the first k characters of a text. An offset in units
converts to the least k whose units reach it, so the conversion is adjoint to U, and an offset past
the end keeps its distance from the end (`Converts`). The conversion in one pass over the text
counts the characters and the units that it has passed; as there are at most as many units as bytes,
its sums stay below 64 bits.

* `charOffset_converts`: **the conversion is adjoint to counting units.**
* `Converts.unique`, `Converts.mono`: an offset converts to one count only, and in order.
* `charOffset_inside_pair`: an offset between two surrogates is rounded up.
* `countFrom?_eq`: **no sum of the pass leaves 64 bits.**
-/

import Mathlib.Algebra.Group.Nat.Defs
import RenderLink.Proofs.Text.Utf8
import RenderLink.Text.Utf16

namespace RenderLink.Text

/-! ### Units -/

/-- The number of UTF-16 units of the first characters of a text. -/
def unitsBefore (text : List Char) (count : Nat) : Nat := (toUnits (text.take count)).length

theorem length_encodeUnits (c : Char) : (encodeUnits c).length = unitCount c := by
  unfold encodeUnits unitCount
  split <;> rfl

theorem length_toUnits (text : List Char) : (toUnits text).length = units text := by
  unfold toUnits
  induction text with
  | nil => rfl
  | cons c rest ih =>
    rw [List.flatMap_cons, List.length_append, length_encodeUnits, ih, units_cons]

theorem unitsBefore_eq (text : List Char) (count : Nat) :
    unitsBefore text count = units (text.take count) := length_toUnits _

theorem unitsBefore_length (text : List Char) : unitsBefore text text.length = units text := by
  rw [unitsBefore_eq, List.take_length]

/-- A character has at most as many units as bytes. -/
theorem unitCount_le_utf8Size (c : Char) : unitCount c ≤ c.utf8Size := by
  have positive := c.utf8Size_pos
  unfold unitCount
  split
  · exact positive
  · next wide =>
    have wide : ¬c.val.toNat < 0x10000 := wide
    unfold Char.utf8Size
    simp only [UInt32.le_iff_toNat_le]
    split_ifs with one two three
    · exact absurd one (by simp; omega)
    · exact absurd two (by simp; omega)
    · exact absurd three (by simp; omega)
    · decide

/-! ### The conversion -/

/-- What an offset in UTF-16 units is in characters: it is within the first characters of a text
exactly if it is within their units, and past the end it keeps its distance from the end. -/
structure Converts (text : List Char) (offset characters : Nat) : Prop where
  le_iff : ∀ count ≤ text.length, characters ≤ count ↔ offset ≤ unitsBefore text count
  beyond : unitsBefore text text.length < offset →
    characters = text.length + (offset - unitsBefore text text.length)

/-- An offset is within the first characters exactly if it is within their units. -/
theorem charOffset_le_iff {text : List Char} {count : Nat} (within : count ≤ text.length)
    (offset : Nat) : charOffset text offset ≤ count ↔ offset ≤ units (text.take count) := by
  induction text generalizing offset count with
  | nil =>
    obtain rfl : count = 0 := Nat.le_zero.mp within
    exact Iff.rfl
  | cons c rest ih =>
    have positive := unitCount_pos c
    cases offset with
    | zero => simp
    | succ offset =>
      cases count with
      | zero => simp [charOffset]
      | succ count =>
        have later := ih (Nat.le_of_succ_le_succ within) (offset + 1 - unitCount c)
        rw [charOffset, List.take_succ_cons, units_cons, Nat.add_le_add_iff_right, later]
        omega

/-- An offset past the end keeps its distance from the end. -/
theorem charOffset_of_units_le {text : List Char} {offset : Nat} (past : units text ≤ offset) :
    charOffset text offset = text.length + (offset - units text) := by
  induction text generalizing offset with
  | nil => simp [charOffset]
  | cons c rest ih =>
    have positive := unitCount_pos c
    rw [units_cons] at past
    cases offset with
    | zero => omega
    | succ offset =>
      rw [charOffset, ih (by omega), List.length_cons, units_cons]
      omega

/-- **The conversion is adjoint to counting units.** -/
theorem charOffset_converts (text : List Char) (offset : Nat) :
    Converts text offset (charOffset text offset) := by
  constructor
  · intro count within
    rw [unitsBefore_eq]
    exact charOffset_le_iff within offset
  · intro past
    rw [unitsBefore_length] at past ⊢
    exact charOffset_of_units_le (Nat.le_of_lt past)

/-- Characters are no more than units, so an offset does not grow. -/
theorem charOffset_le (text : List Char) (offset : Nat) : charOffset text offset ≤ offset := by
  induction text generalizing offset with
  | nil => exact Nat.le_refl offset
  | cons c rest ih =>
    have positive := unitCount_pos c
    cases offset with
    | zero => exact Nat.zero_le 0
    | succ offset =>
      have later := ih (offset + 1 - unitCount c)
      rw [charOffset]
      omega

namespace Converts

variable {text : List Char} {first second count count' : Nat}

/-- The conversion keeps the order of offsets. -/
theorem mono (converted : Converts text first count) (converted' : Converts text second count')
    (ordered : first ≤ second) : count ≤ count' := by
  by_cases within : second ≤ unitsBefore text text.length
  · have inside : count' ≤ text.length := (converted'.le_iff _ (Nat.le_refl _)).mpr within
    apply (converted.le_iff count' inside).mpr
    exact Nat.le_trans ordered ((converted'.le_iff count' inside).mp (Nat.le_refl _))
  · have later := converted'.beyond (Nat.lt_of_not_le within)
    by_cases before : first ≤ unitsBefore text text.length
    · have inside : count ≤ text.length := (converted.le_iff _ (Nat.le_refl _)).mpr before
      omega
    · have earlier := converted.beyond (Nat.lt_of_not_le before)
      omega

/-- An offset converts to one count only. -/
theorem unique (converted : Converts text first count) (converted' : Converts text first count') :
    count = count' :=
  Nat.le_antisymm (converted.mono converted' (Nat.le_refl _))
    (converted'.mono converted (Nat.le_refl _))

end Converts

/-- The units of the first characters convert to their number. -/
theorem charOffset_unitsBefore {text : List Char} {count : Nat} (within : count ≤ text.length) :
    charOffset text (unitsBefore text count) = count := by
  have whole := charOffset_units (text.take count) (text.drop count)
  rw [List.take_append_drop, List.length_take_of_le within] at whole
  rw [unitsBefore_eq, whole]

/-- An offset between two surrogates is rounded up: the character before it counts. -/
theorem charOffset_inside_pair (before after : List Char) {c : Char} {high low : Nat}
    (pair : encodeUnits c = [high, low]) :
    charOffset (before ++ c :: after) ((toUnits before).length + 1) = before.length + 1 := by
  have two : unitCount c = 2 := by
    rw [← length_encodeUnits, pair]
    rfl
  have throughPair : (before ++ c :: after).take (before.length + 1) = before ++ [c] := by
    rw [List.take_length_add_append]
    rfl
  rw [length_toUnits]
  apply Nat.le_antisymm
  · rw [charOffset_le_iff (by simp), throughPair]
    simp [two]
  · apply Nat.lt_of_not_le
    rw [charOffset_le_iff (by simp), List.take_left]
    exact Nat.not_succ_le_self _

/-! ### One pass in 64 bits -/

/-- The sum of two numbers of 64 bits, unless it leaves 64 bits. -/
def sum? (first second : UInt64) : Option UInt64 :=
  if first.toNat + second.toNat < 2 ^ 64 then some (first + second) else none

/-- The conversion in one pass, with the numbers of characters and of units passed so far; there is
no result once a sum leaves 64 bits. -/
def countFrom? (offset : UInt64) : UInt64 → UInt64 → List Char → Option UInt64
  | characters, passed, [] => sum? characters (if offset < passed then 0 else offset - passed)
  | characters, passed, c :: rest =>
    if offset ≤ passed then some characters
    else do
      let further ← sum? passed (UInt64.ofNat (unitCount c))
      let next ← sum? characters 1
      countFrom? offset next further rest

theorem sum?_eq {first second : UInt64} (small : first.toNat + second.toNat < 2 ^ 64) :
    ∃ sum, sum? first second = some sum ∧ sum.toNat = first.toNat + second.toNat := by
  refine ⟨first + second, if_pos small, ?_⟩
  rw [UInt64.toNat_add, Nat.mod_eq_of_lt small]

/-- At the end of the text the pass adds what is left of the offset. -/
theorem countFrom?_end (offset : UInt64) {characters passed : UInt64}
    (fewer : characters.toNat ≤ passed.toNat) :
    ∃ count, countFrom? offset characters passed [] = some count ∧
      count.toNat = characters.toNat + (offset.toNat - passed.toNat) := by
  have offsetSmall := offset.toNat_lt
  have passedSmall := passed.toNat_lt
  have distance : (if offset < passed then 0 else offset - passed).toNat =
      offset.toNat - passed.toNat := by
    split
    · next below =>
      have least : offset.toNat < passed.toNat := UInt64.lt_iff_toNat_lt.mp below
      exact (Nat.sub_eq_zero_of_le (Nat.le_of_lt least)).symm
    · next above => exact UInt64.toNat_sub_of_le _ _ (UInt64.not_lt.mp above)
  rw [← distance]
  exact sum?_eq (by omega)

/-- A character before the offset is counted, and its units are passed. -/
theorem countFrom?_step {offset characters passed : UInt64} {c : Char} (rest : List Char)
    (ahead : ¬ offset ≤ passed) (fewer : characters.toNat ≤ passed.toNat)
    (small : passed.toNat + unitCount c < 2 ^ 64) :
    ∃ next further,
      countFrom? offset characters passed (c :: rest) = countFrom? offset next further rest ∧
        next.toNat = characters.toNat + 1 ∧ further.toNat = passed.toNat + unitCount c := by
  have positive := unitCount_pos c
  have one : (1 : UInt64).toNat = 1 := rfl
  have wide : (UInt64.ofNat (unitCount c)).toNat = unitCount c :=
    UInt64.toNat_ofNat_of_lt' (by simp [UInt64.size]; omega)
  obtain ⟨further, isFurther, furtherValue⟩ :=
    @sum?_eq passed (UInt64.ofNat (unitCount c)) (by omega)
  obtain ⟨next, isNext, nextValue⟩ := @sum?_eq characters 1 (by omega)
  refine ⟨next, further, ?_, by rw [nextValue, one], by rw [furtherValue, wide]⟩
  rw [countFrom?, if_neg ahead, isFurther, isNext]
  rfl

/-- What the pass has behind it is no more units than bytes and no more characters than units. -/
theorem countFrom?_rest (offset : UInt64) {characters passed : UInt64} {rest : List Char}
    (fewer : characters.toNat ≤ passed.toNat)
    (small : passed.toNat + byteLength rest < 2 ^ 64) :
    ∃ count, countFrom? offset characters passed rest = some count ∧
      count.toNat = characters.toNat + charOffset rest (offset.toNat - passed.toNat) := by
  induction rest generalizing characters passed with
  | nil => exact countFrom?_end offset fewer
  | cons c rest ih =>
    have bounded := unitCount_le_utf8Size c
    have positive := unitCount_pos c
    rw [byteLength_cons] at small
    by_cases reached : offset ≤ passed
    · have nothing : offset.toNat - passed.toNat = 0 :=
        Nat.sub_eq_zero_of_le (UInt64.le_iff_toNat_le.mp reached)
      refine ⟨characters, by rw [countFrom?, if_pos reached], ?_⟩
      rw [nothing, charOffset_zero, Nat.add_zero]
    · have remaining : passed.toNat < offset.toNat := by
        rw [UInt64.le_iff_toNat_le] at reached
        omega
      obtain ⟨next, further, step, nextValue, furtherValue⟩ :=
        @countFrom?_step offset characters passed c rest reached fewer (by omega)
      obtain ⟨count, isCount, value⟩ := @ih next further (by omega) (by omega)
      obtain ⟨distance, isDistance⟩ : ∃ distance, offset.toNat - passed.toNat = distance + 1 :=
        ⟨offset.toNat - passed.toNat - 1, by omega⟩
      have behind : offset.toNat - further.toNat = distance + 1 - unitCount c := by omega
      refine ⟨count, step.trans isCount, ?_⟩
      rw [value, isDistance, charOffset, behind, nextValue]
      omega

/-- **No sum of the pass leaves 64 bits**, and its result is the conversion. -/
theorem countFrom?_eq {text : List Char} (small : byteLength text < 2 ^ 64) (offset : UInt64) :
    (countFrom? offset 0 0 text).map UInt64.toNat = some (charOffset text offset.toNat) := by
  obtain ⟨count, isCount, value⟩ :=
    countFrom?_rest offset (Nat.le_refl (0 : UInt64).toNat) (by simpa using small)
  rw [isCount, Option.map_some, value]
  simp

end RenderLink.Text
