import Polish.Binary.Rounding

set_option autoImplicit false

namespace Polish

/-- The decimal `significand * 10 ^ exponent`. -/
structure Decimal where
  significand : Nat
  exponent : Int
deriving DecidableEq, Repr

namespace Decimal

/-- The count of decimal digits; zero has none. -/
def digitCount (n : Nat) : Nat := if n = 0 then 0 else (Nat.toDigits 10 n).length

def leadingExponent (numerator denominator : Nat) : Int :=
  if denominator ≤ numerator then (digitCount (numerator / denominator) : Int) - 1
  else -(digitCount ((denominator + numerator - 1) / numerator - 1) : Int)

/-- The reals that round to a number: a quotient with the two ends of its interval. -/
structure Neighbourhood where
  value : Nat
  low : Nat
  high : Nat
  denominator : Nat
  closed : Bool

/-- The neighbourhood of the positive number with these parts. -/
def Neighbourhood.ofParts (f : Format) (significand scale : Nat) : Neighbourhood :=
  let step := 2 ^ scale
  let value := 4 * significand * step
  let below := if significand = 2 ^ f.fractionBits ∧ 0 < scale then step else 2 * step
  { value, low := value - below, high := value + 2 * step,
    denominator := 4 * 2 ^ f.unitBits, closed := significand % 2 = 0 }

def Neighbourhood.contains (around : Neighbourhood) (numerator denominator : Nat) : Bool :=
  let left := around.low * denominator
  let middle := numerator * around.denominator
  let right := around.high * denominator
  if around.closed then left ≤ middle && middle ≤ right else left < middle && middle < right

/-- The better of the two points of the grid `10 ^ exponent` beside the value, if one is inside. -/
def onGrid? (around : Neighbourhood) (exponent : Int) : Option Decimal :=
  let up := 10 ^ exponent.toNat
  let down := 10 ^ (-exponent).toNat
  let numerator := around.value * down
  let denominator := around.denominator * up
  let lower := numerator / denominator
  let lowerInside := around.contains (lower * up) down
  let upperInside := around.contains ((lower + 1) * up) down
  let remainder := numerator % denominator
  let lowerNearer :=
    2 * remainder < denominator || (2 * remainder == denominator && lower % 2 == 0)
  if lowerInside && upperInside then
    some ⟨if lowerNearer then lower else lower + 1, exponent⟩
  else if lowerInside then some ⟨lower, exponent⟩
  else if upperInside then some ⟨lower + 1, exponent⟩
  else none

/-- The first hit on grids of growing precision; the last grid counts as a hit. -/
def search (around : Neighbourhood) (exponent : Int) : Nat → Decimal
  | 0 =>
      let up := 10 ^ exponent.toNat
      let down := 10 ^ (-exponent).toNat
      ⟨roundQuotient (around.value * down) (around.denominator * up), exponent⟩
  | more + 1 => (onGrid? around exponent).getD (search around (exponent - 1) more)

def shortest (f : Format) (significand scale : Nat) : Decimal :=
  let around := Neighbourhood.ofParts f significand scale
  search around (leadingExponent around.value around.denominator) 17

end Decimal

end Polish
