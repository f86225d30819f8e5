/-
**Cutting a stored text.**

A stored text is the bytes of its characters in UTF-8. It can be cut at a byte offset at which a
character begins, and at its end; any other cut is refused, since what it leaves is no text.
-/

import RenderLink.Text.Utf8

namespace RenderLink.Text

/-- Whether a byte goes on with a character that an earlier byte begins. -/
def isContinuation (byte : UInt8) : Bool := 0x80 ≤ byte && byte < 0xC0

/-- Whether a text can be cut at a byte offset. -/
def isBoundary (bytes : List UInt8) (offset : Nat) : Bool :=
  match bytes[offset]? with
  | some byte => !isContinuation byte
  | none => offset = bytes.length

/-- A cut that is refused. -/
structure BadCut where
  start : Nat
  stop : Nat
  deriving DecidableEq, Repr

/-- The bytes from one offset up to another. -/
def cut (bytes : List UInt8) (start stop : Nat) : Except BadCut (List UInt8) :=
  if start ≤ stop ∧ isBoundary bytes start ∧ isBoundary bytes stop then
    .ok ((bytes.take stop).drop start)
  else .error ⟨start, stop⟩

end RenderLink.Text
