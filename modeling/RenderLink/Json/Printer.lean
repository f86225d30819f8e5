/-
**JSON text.**

Compact, with the members of an object in their order. Quotation marks, backslashes and the control
characters below the space are escaped, and nothing else is. A double has its shortest digits,
positional from 1e-5 up to below 1e16, with a point in every positional number.

* `escape_of_plain`: a character that needs no escape stands for itself.
-/

import RenderLink.Json.Value

namespace RenderLink.Json

open Decimal

/-- Doubles are positional between 1e-5 and 1e16, keep `.0` and the sign of zero. -/
def numberLayout : Layout :=
  { least := -5, greatest := 15, wholeMark := ['.', '0'], signedZero := true }

def Number.render : Number → List Char
  | .natural value => naturalDigits value.toNat
  | .negative below => '-' :: naturalDigits (below + 1)
  | .double value => numberLayout.write value

def hexDigit (n : Nat) : Char := Nat.digitChar (n % 16)

/-- How a character is written in a string. -/
def escape (c : Char) : List Char :=
  if c = '"' then ['\\', '"']
  else if c = '\\' then ['\\', '\\']
  else if c.toNat = 8 then ['\\', 'b']
  else if c = '\t' then ['\\', 't']
  else if c = '\n' then ['\\', 'n']
  else if c.toNat = 12 then ['\\', 'f']
  else if c = '\r' then ['\\', 'r']
  else if c.toNat < 0x20 then ['\\', 'u', '0', '0', hexDigit (c.toNat / 16), hexDigit c.toNat]
  else [c]

/-- A character that needs no escape stands for itself. -/
theorem escape_of_plain {c : Char} (quotation : c ≠ '"') (backslash : c ≠ '\\')
    (printable : 0x20 ≤ c.toNat) : escape c = [c] := by
  have tab : c ≠ '\t' := by rintro rfl; simp at printable
  have newline : c ≠ '\n' := by rintro rfl; simp at printable
  have carriage : c ≠ '\r' := by rintro rfl; simp at printable
  have notBackspace : c.toNat ≠ 8 := by omega
  have notFeed : c.toNat ≠ 12 := by omega
  have notControl : ¬ c.toNat < 0x20 := by omega
  simp [escape, quotation, backslash, tab, newline, carriage, notBackspace, notFeed, notControl]

def renderString (text : List Char) : List Char :=
  '"' :: text.flatMap escape ++ ['"']

mutual

/-- The compact text of a value. -/
def render : Json → List Char
  | .null => ['n', 'u', 'l', 'l']
  | .bool true => ['t', 'r', 'u', 'e']
  | .bool false => ['f', 'a', 'l', 's', 'e']
  | .number value => value.render
  | .string value => renderString value.toList
  | .list items => '[' :: renderItems items ++ [']']
  | .object members => '\x7b' :: renderMembers members ++ ['\x7d']
termination_by structural value => value

/-- The texts of a list's items, joined by commas. -/
def renderItems : List Json → List Char
  | [] => []
  | [item] => item.render
  | item :: rest => item.render ++ ',' :: renderItems rest
termination_by structural items => items

/-- The texts of an object's members, joined by commas. -/
def renderMembers : List (String × Json) → List Char
  | [] => []
  | [(key, value)] => renderString key.toList ++ ':' :: value.render
  | (key, value) :: rest =>
    renderString key.toList ++ ':' :: value.render ++ ',' :: renderMembers rest
termination_by structural members => members

end

def toText (value : Json) : String := String.ofList value.render

end RenderLink.Json
