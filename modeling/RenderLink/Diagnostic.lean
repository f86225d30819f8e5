/-
**Tips and errors of the template compiler.**

A diagnostic is a message, with a range of the template if the compiler gave one. Its form depends
on the compiler: a string is a message, an object may hold a message and a range, and anything else
is shown as its own text.
-/

import RenderLink.Json.Decode

namespace RenderLink

open Json

/-- A tip or an error of the template compiler. -/
inductive Diagnostic where
  | plain (message : String)
  /-- A message about the range from `start` up to `stop`. -/
  | ranged (message : String) (start stop : UInt64)
  deriving DecidableEq, Repr

namespace Diagnostic

def message : Diagnostic → String
  | .plain message => message
  | .ranged message _ _ => message

/-- The value of a key that stands in an object at most once; a missing key counts as null. -/
def single? (key : String) (members : List (String × Json)) : Option Json :=
  match members.filter fun member => member.1 = key with
  | [] => some .null
  | [(_, value)] => some value
  | _ => none

/-- A message, which may be null. -/
def messageOf? : Json → Option (Option String)
  | .null => some none
  | .string text => some (some text)
  | _ => none

/-- An offset, which may be null. -/
def offsetOf? : Json → Option (Option UInt64)
  | .null => some none
  | .number (.natural value) => some (some value)
  | _ => none

/-- The diagnostic of an object whose message and offsets can be used. -/
def ofMembers? (members : List (String × Json)) : Option Diagnostic := do
  let message ← messageOf? (← single? "msg" members)
  let start ← offsetOf? (← single? "start" members)
  let stop ← offsetOf? (← single? "end" members)
  match start, stop with
  | some start, some stop => return .ranged (message.getD "") start stop
  | _, _ => return .plain (message.getD "")

/-- The diagnostic that a value stands for. -/
def ofJson : Json → Diagnostic
  | .string message => .plain message
  | .object members => (ofMembers? members).getD (.plain (Json.object members).tidy.toText)
  | value => .plain value.tidy.toText

def decoder (levels : Nat) : Decoder Diagnostic := (Decoder.value levels).map ofJson

end Diagnostic

end RenderLink
