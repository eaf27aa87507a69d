import Inlay.Double.Basic

namespace Inlay.Double

/-- Divides and rounds to the nearest natural number, a half to the even one. -/
def roundDiv (numerator denominator : Nat) : Nat :=
  let quotient := numerator / denominator
  let twice := 2 * (numerator % denominator)
  if twice < denominator then quotient
  else if denominator < twice then quotient + 1
  else quotient + quotient % 2

/-- The greatest integer whose power of two does not exceed a positive fraction. -/
def fractionLog2 (numerator denominator : Nat) : Int :=
  let guess : Int := numerator.log2 - denominator.log2
  if denominator * Nat.pow 2 guess.toNat ≤ numerator * Nat.pow 2 (-guess).toNat then guess
  else guess - 1

def roundFraction (numerator denominator : Nat) : Nat :=
  let unit : Int := max (fractionLog2 numerator denominator - 52) (-1074)
  let significand :=
    roundDiv (numerator * Nat.pow 2 (-unit).toNat) (denominator * Nat.pow 2 unit.toNat)
  min ((unit + 1074).toNat * leadingBit + significand) infinityPattern

/-- The magnitude nearest to `coefficient * 10 ^ exponent`. The two outer cases lie far beyond the
largest and far below the smallest number, whatever the coefficient's digits are. -/
def roundDecimal (coefficient : Nat) (exponent : Int) : Nat :=
  let scale := exponent + (coefficient.log2 * 3 / 10 : Nat)
  if coefficient = 0 then 0
  else if 400 < scale then infinityPattern
  else if exponent + (coefficient.log2 : Int) < -400 then 0
  else roundFraction (coefficient * Nat.pow 10 exponent.toNat) (Nat.pow 10 (-exponent).toNat)

def ofDecimal (negative : Bool) (coefficient : Nat) (exponent : Int) : Double :=
  ofMagnitude negative (roundDecimal coefficient exponent)

end Inlay.Double
