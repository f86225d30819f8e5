/-
**Finite double-precision numbers, exactly.**

A magnitude is `significand · 2 ^ exponent`. Every operation computes the exact quotient of two
natural numbers and rounds it once, to the nearest magnitude of 53 bits with the least exponent
-1074, a tie going to the even significand (`Magnitude.ofRatio`). Magnitudes have no greatest
exponent of their own: `Magnitude.isFinite` says which of them a double can hold.
-/

namespace RenderLink.Decimal

/-- The quotient of two natural numbers rounded to the nearest one, a tie going to the even one. -/
def roundHalfEven (numerator denominator : Nat) : Nat :=
  let quotient := numerator / denominator
  let remainder := numerator % denominator
  if 2 * remainder < denominator then quotient
  else if denominator < 2 * remainder then quotient + 1
  else if quotient % 2 = 0 then quotient
  else quotient + 1

abbrev twoTo (exponent : Nat) : Nat := Nat.pow 2 exponent

abbrev tenTo (exponent : Nat) : Nat := Nat.pow 10 exponent

/-- A nonnegative number `significand · 2 ^ exponent` of at most 53 bits. -/
structure Magnitude where
  significand : Nat
  exponent : Int
  deriving DecidableEq, Repr

namespace Magnitude

def leastExponent : Int := -1074

/-- The exponent of the greatest power of two that is at most a positive quotient. -/
def floorLog2 (numerator denominator : Nat) : Int :=
  let estimate : Int := (Nat.log2 numerator : Int) - Nat.log2 denominator
  if denominator * twoTo estimate.toNat ≤ numerator * twoTo (-estimate).toNat then estimate
  else estimate - 1

/-- The magnitude nearest to a quotient. -/
def ofRatio (numerator denominator : Nat) : Magnitude :=
  if numerator = 0 then ⟨0, leastExponent⟩
  else
    let exponent := max (floorLog2 numerator denominator - 52) leastExponent
    let significand :=
      roundHalfEven (numerator * twoTo (-exponent).toNat) (denominator * twoTo exponent.toNat)
    if significand = twoTo 53 then ⟨twoTo 52, exponent + 1⟩ else ⟨significand, exponent⟩

def ofNat (n : Nat) : Magnitude := ofRatio n 1

/-- Whether a double can hold the magnitude. -/
def isFinite (magnitude : Magnitude) : Bool := magnitude.exponent ≤ 971

def mul (first second : Magnitude) : Magnitude :=
  let exponent := first.exponent + second.exponent
  ofRatio (first.significand * second.significand * twoTo exponent.toNat) (twoTo (-exponent).toNat)

def div (first second : Magnitude) : Magnitude :=
  let exponent := first.exponent - second.exponent
  ofRatio (first.significand * twoTo exponent.toNat) (second.significand * twoTo (-exponent).toNat)

/-! ### Powers of ten -/

/-- The greatest exponent whose power of ten is a finite magnitude. -/
def greatestPower : Nat := 308

def powerOfTen (exponent : Nat) : Magnitude := ofNat (tenTo exponent)

/-- A magnitude times a power of ten, if it stays finite. -/
def scaleUp? (magnitude : Magnitude) (exponent : Nat) : Option Magnitude :=
  if exponent ≤ greatestPower then
    let product := magnitude.mul (powerOfTen exponent)
    if product.isFinite then some product else none
  else if magnitude.significand = 0 then some magnitude
  else none

/-- A magnitude divided by a power of ten, in steps of the greatest power. -/
def scaleDown (magnitude : Magnitude) (exponent : Nat) : Magnitude :=
  if exponent ≤ greatestPower then magnitude.div (powerOfTen exponent)
  else if magnitude.significand = 0 then magnitude
  else scaleDown (magnitude.div (powerOfTen greatestPower)) (exponent - greatestPower)
termination_by exponent
decreasing_by simp only [greatestPower] at *; omega

/-- The magnitude read from `significand · 10 ^ exponent`, if it is finite. -/
def ofDecimal? (significand : Nat) (exponent : Int) : Option Magnitude :=
  if 0 ≤ exponent then (ofNat significand).scaleUp? exponent.toNat
  else some ((ofNat significand).scaleDown (-exponent).toNat)

end Magnitude

/-- A double-precision number: a magnitude with a sign, which zero has too. -/
structure Double where
  negative : Bool
  magnitude : Magnitude
  deriving DecidableEq, Repr

end RenderLink.Decimal
