/-
**The text that a script makes of a value.**

Strings stand for themselves, the items of a list are joined by commas, and a number has its
shortest digits, positional between 1e-6 and 1e21.
-/

import RenderLink.Json.Value

namespace RenderLink.Bundle

open Json Decimal

/-- Numbers of a script are positional between 1e-6 and 1e21. -/
def scriptNumber : Layout :=
  { least := -6, greatest := 20, wholeMark := [], signedZero := false }

mutual

/-- The text that a script makes of a value. -/
def scriptText : Json → List Char
  | .null => ['n', 'u', 'l', 'l']
  | .bool true => ['t', 'r', 'u', 'e']
  | .bool false => ['f', 'a', 'l', 's', 'e']
  | .number (.natural value) => scriptNumber.write ⟨false, Magnitude.ofNat value.toNat⟩
  | .number (.negative below) => scriptNumber.write ⟨true, Magnitude.ofNat (below + 1)⟩
  | .number (.double value) => scriptNumber.write value
  | .string text => text.toList
  | .list items => scriptTexts items
  | .object _ => "[object Object]".toList
termination_by structural value => value

/-- The texts of a list's items, joined by commas; null is empty in a list. -/
def scriptTexts : List Json → List Char
  | [] => []
  | [item] => if item.isNull then [] else scriptText item
  | item :: rest => (if item.isNull then [] else scriptText item) ++ ',' :: scriptTexts rest
termination_by structural items => items

end

end RenderLink.Bundle
