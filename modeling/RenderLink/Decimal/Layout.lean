/-
**How a decimal is laid out.**

A number is written positionally when the exponent of its leading digit lies in a given range, and
otherwise with one digit before the point and a signed exponent. The range and the mark of a whole
number are the choices of a format (`Layout`).
-/

import RenderLink.Decimal.Shortest

namespace RenderLink.Decimal

/-- The choices of a number format. -/
structure Layout where
  /-- The least leading exponent that is written positionally. -/
  least : Int
  /-- The greatest leading exponent that is written positionally. -/
  greatest : Int
  /-- What follows the digits of a whole number written positionally. -/
  wholeMark : List Char
  /-- Whether the sign of zero is written. -/
  signedZero : Bool

def naturalDigits (n : Nat) : List Char := Nat.toDigits 10 n

def Layout.positional (layout : Layout) (number : Digits) : List Char :=
  let digits := naturalDigits number.digits
  if 0 ≤ number.exponent then
    digits ++ List.replicate number.exponent.toNat '0' ++ layout.wholeMark
  else
    let places := (-number.exponent).toNat
    let whole := digits.length - places
    if whole = 0 then ['0', '.'] ++ List.replicate (places - digits.length) '0' ++ digits
    else digits.take whole ++ '.' :: digits.drop whole

def scientific (number : Digits) : List Char :=
  let digits := naturalDigits number.digits
  let exponent := number.exponent + (digits.length - 1 : Nat)
  let fraction := digits.drop 1
  digits.take 1 ++ (if fraction.isEmpty then [] else '.' :: fraction) ++
    ['e', if 0 ≤ exponent then '+' else '-'] ++ naturalDigits exponent.natAbs

/-- A double in a format, by its shortest digits. -/
def Layout.write (layout : Layout) (number : Double) : List Char :=
  let decimal := number.magnitude.shortest
  let leading := decimal.exponent + ((naturalDigits decimal.digits).length - 1 : Nat)
  let sign :=
    if number.negative && (layout.signedZero || decimal.digits ≠ 0) then ['-'] else []
  sign ++
    if layout.least ≤ leading ∧ leading ≤ layout.greatest then layout.positional decimal
    else scientific decimal

end RenderLink.Decimal
