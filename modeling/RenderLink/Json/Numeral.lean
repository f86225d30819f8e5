/-
**Numbers of a text.**

A number that is kept is an integer when its text is one and it fits 64 bits. Any other one is a
double: the digits that fit 64 bits, scaled by a power of ten. A number that is passed over is
checked for its shape only, so one out of range goes unnoticed.
-/

import RenderLink.Json.Reader

namespace RenderLink.Json

open Decimal

/-! ### Numbers -/

def digitValue (c : Char) : Nat := c.toNat - '0'.toNat

def digitRun : Reader (List Char) := Reader.takeWhile Char.isDigit

/-- Appends digits to a number as long as it fits 64 bits, and returns the digits that do not. -/
def absorb (significand : Nat) : List Char → Nat × List Char
  | [] => (significand, [])
  | digit :: rest =>
    let grown := significand * 10 + digitValue digit
    if grown < UInt64.size then absorb grown rest else (significand, digit :: rest)

/-- A double, which must be finite. -/
def double (negative : Bool) (significand : Nat) (exponent : Int) : Reader Number :=
  match Magnitude.ofDecimal? significand exponent with
  | some magnitude => pure (.double ⟨negative, magnitude⟩)
  | none => Reader.fail .notJson

/-- An integer, or a double if the integer does not fit 64 bits or is a negative zero. -/
def integer (negative : Bool) (significand : Nat) : Reader Number :=
  if negative then
    if fits : 0 < significand ∧ significand ≤ 0x8000000000000000 then
      pure (.negative ⟨significand - 1, by omega⟩)
    else double true significand 0
  else pure (.natural (UInt64.ofNat significand))

/-- The greatest exponent that is taken at its value. -/
def exponentLimit : Nat := 2147483647

/-- The rest of a number after the `e`. A greater exponent than the limit is infinite. -/
def exponentPart (negative : Bool) (significand : Nat) (exponent : Int) : Reader Number := do
  let sign ← Reader.peek?
  if sign = some '+' ∨ sign = some '-' then
    let _ ← Reader.next
  let first ← Reader.next
  if !first.isDigit then Reader.fail .notJson
  else
    let others ← digitRun
    let value := (first :: others).foldl (fun value digit => value * 10 + digitValue digit) 0
    let downwards := sign = some '-'
    if value ≤ exponentLimit then
      double negative significand (exponent + if downwards then -(value : Int) else value)
    else if significand = 0 ∨ downwards then double negative 0 0
    else Reader.fail .notJson

/-- The rest of a number after its integer or fraction digits. -/
def scaled (negative : Bool) (significand : Nat) (exponent : Int) : Reader Number := do
  match ← Reader.peek? with
  | some 'e' | some 'E' => do
    let _ ← Reader.next
    exponentPart negative significand exponent
  | _ => double negative significand exponent

/-- The rest of a number after its point, which at least one digit follows. -/
def fractionPart (negative : Bool) (significand : Nat) (exponent : Int) : Reader Number := do
  let digits ← digitRun
  if digits.isEmpty then
    let _ ← Reader.next
    Reader.fail .notJson
  else
    let (significand, dropped) := absorb significand digits
    scaled negative significand (exponent - (digits.length - dropped.length : Nat))

/-- The rest of a number after its integer digits, of which some were dropped. -/
def afterInteger (negative : Bool) (significand dropped : Nat) : Reader Number := do
  match ← Reader.peek? with
  | some '.' => do
    let _ ← Reader.next
    fractionPart negative significand dropped
  | some 'e' | some 'E' => scaled negative significand dropped
  | _ => if dropped = 0 then integer negative significand else double negative significand dropped

/-- The rest of a number after its first digit. A leading zero stands alone. -/
def afterFirstDigit (negative : Bool) (first : Char) : Reader Number := do
  if first = '0' then
    match ← Reader.peek? with
    | some c => if c.isDigit then Reader.fail .notJson else afterInteger negative 0 0
    | none => afterInteger negative 0 0
  else if first.isDigit then
    let digits ← digitRun
    let (significand, dropped) := absorb (digitValue first) digits
    afterInteger negative significand dropped.length
  else Reader.fail .notJson

/-- A number, by its first character. -/
def numeral : Decoder Number := fun head => do
  if head = '-' then
    let first ← Reader.next
    afterFirstDigit true first
  else afterFirstDigit false head

/-! ### Numbers that are passed over -/

/-- Passes over a digit and the digits after it. -/
def skipDigits : Reader Unit := do
  match ← Reader.next? with
  | some c =>
    if c.isDigit then
      let _ ← digitRun
      pure ()
    else Reader.fail .notJson
  | none => Reader.fail .notJson

/-- Passes over the exponent of a number, if it has one. -/
def skipExponent : Reader Unit := do
  match ← Reader.peek? with
  | some 'e' | some 'E' => do
    let _ ← Reader.next
    let sign ← Reader.peek?
    if sign = some '+' ∨ sign = some '-' then
      let _ ← Reader.next
    skipDigits
  | _ => pure ()

/-- Passes over what follows the integer digits of a number. -/
def skipFraction : Reader Unit := do
  match ← Reader.peek? with
  | some '.' => do
    let _ ← Reader.next
    skipDigits
    skipExponent
  | _ => skipExponent

/-- Passes over a number, by its first character. -/
def skipNumber : Decoder Unit := fun head => do
  let first ← if head = '-' then Reader.next? else pure (some head)
  match first with
  | some '0' => do
    match ← Reader.peek? with
    | some c => if c.isDigit then Reader.fail .notJson else skipFraction
    | none => skipFraction
  | some c =>
    if c.isDigit then
      let _ ← digitRun
      skipFraction
    else Reader.fail .notJson
  | none => Reader.fail .notJson

end RenderLink.Json
