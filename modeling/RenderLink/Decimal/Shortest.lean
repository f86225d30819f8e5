/-
**The shortest decimal of a magnitude.**

The decimals that read back as a magnitude are those in the interval halfway to its two neighbours,
the ends included when the significand is even. On the grid of multiples of a power of ten the two
points around the magnitude are tried, the coarsest grid first; of two points in the interval the
nearer one is taken, and of two equally near the even one.
-/

import RenderLink.Decimal.Double

namespace RenderLink.Decimal

/-- The number `digits · 10 ^ exponent`. -/
structure Digits where
  digits : Nat
  exponent : Int
  deriving DecidableEq, Repr

/-- A magnitude and the ends of its interval, in a common unit `numerator / denominator`. -/
structure Interval where
  value : Nat
  low : Nat
  high : Nat
  /-- Whether the two ends belong to the interval. -/
  closed : Bool
  numerator : Nat
  denominator : Nat

/-- The interval of a positive magnitude, in quarters of its last binary place. -/
def Magnitude.interval (magnitude : Magnitude) : Interval :=
  let exponent := magnitude.exponent - 2
  let value := 4 * magnitude.significand
  let narrow := magnitude.significand = twoTo 52 ∧ Magnitude.leastExponent < magnitude.exponent
  { value
    low := value - if narrow then 1 else 2
    high := value + 2
    closed := magnitude.significand % 2 = 0
    numerator := twoTo exponent.toNat
    denominator := twoTo (-exponent).toNat }

/-- The point of a grid that stands for the value, if one of its two neighbours is inside. -/
def Interval.onGrid? (interval : Interval) (exponent : Int) : Option Nat :=
  let unit := interval.numerator * tenTo (-exponent).toNat
  let step := interval.denominator * tenTo exponent.toNat
  let below := interval.value * unit / step
  let holds (end₁ end₂ : Nat) : Bool := if interval.closed then end₁ ≤ end₂ else end₁ < end₂
  let belowHolds := holds (interval.low * unit) (below * step)
  let aboveHolds := holds ((below + 1) * step) (interval.high * unit)
  let toBelow := interval.value * unit - below * step
  let toAbove := (below + 1) * step - interval.value * unit
  if belowHolds && aboveHolds then
    if toBelow < toAbove then some below
    else if toAbove < toBelow then some (below + 1)
    else if below % 2 = 0 then some below
    else some (below + 1)
  else if belowHolds then some below
  else if aboveHolds then some (below + 1)
  else none

/-- The first grid point found, from an exponent downwards over a number of grids. -/
def Interval.search (interval : Interval) (exponent : Int) : Nat → Digits
  | 0 => ⟨(interval.onGrid? exponent).getD 0, exponent⟩
  | grids + 1 =>
    match interval.onGrid? exponent with
    | some digits => ⟨digits, exponent⟩
    | none => interval.search (exponent - 1) grids

/-- The shortest decimal that reads back as a magnitude. The search starts above the leading digit;
seventeen digits always suffice, so twenty grids do. -/
def Magnitude.shortest (magnitude : Magnitude) : Digits :=
  if magnitude.significand = 0 then ⟨0, 0⟩
  else
    let leading := magnitude.exponent + Nat.log2 magnitude.significand
    magnitude.interval.search ((leading + 1) * 30103 / 100000 + 1) 20

end RenderLink.Decimal
