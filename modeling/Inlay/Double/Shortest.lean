import Inlay.Double.Decimal
import Inlay.Text.Numeral

/-!
The text of a number has the fewest significant digits that read back as the same number, and of
those the digits nearest to it.
-/

namespace Inlay.Double

/-- Significant digits, the first of which counts the given power of ten. -/
structure Scientific where
  digits : Text
  exponent : Int

def fraction (x : Double) : Nat × Nat :=
  (x.significand * Nat.pow 2 x.exponent.toNat, Nat.pow 2 (-x.exponent).toNat)

/-- The greatest integer whose power of ten does not exceed a positive fraction. -/
def fractionLog10 (numerator denominator : Nat) : Int :=
  if denominator ≤ numerator then (Text.ofNat (numerator / denominator)).length - 1
  else -(Text.ofNat ((denominator - 1) / numerator)).length

/-- A multiple of `10 ^ unit` next to the number that reads back as it, the nearest one first. -/
def neighbour? (x : Double) (unit : Int) : Option Nat :=
  let (numerator, denominator) := x.fraction
  let scaled := numerator * Nat.pow 10 (-unit).toNat
  let grid := denominator * Nat.pow 10 unit.toNat
  [roundDiv scaled grid, scaled / grid, scaled / grid + 1].find? fun n =>
    roundDecimal n unit = x.magnitude

def scientific (x : Double) : Scientific :=
  let (numerator, denominator) := x.fraction
  let leading := fractionLog10 numerator denominator
  let found := (List.range 17).findSome? fun (places : Nat) =>
    (x.neighbour? (leading - places)).map fun n => (Text.ofNat n, leading - places)
  let (digits, unit) := found.getD ([], 0)
  ⟨(digits.reverse.dropWhile (· = CodePoint.ofChar '0')).reverse, unit + digits.length - 1⟩

def zeros (count : Nat) : Text :=
  List.replicate count '0'

def Scientific.positional (s : Scientific) : Text :=
  let whole := (s.exponent + 1).toNat
  if s.exponent < 0 then "0." ++ zeros (-s.exponent - 1).toNat ++ s.digits
  else if s.digits.length ≤ whole then s.digits ++ zeros (whole - s.digits.length) ++ ".0"
  else s.digits.take whole ++ "." ++ s.digits.drop whole

def Scientific.exponential (s : Scientific) : Text :=
  let size := s.exponent.natAbs
  let point : Text := if s.digits.length ≤ 1 then [] else "."
  let sign : Text := if s.exponent < 0 then "e-" else "e+"
  let lead : Text := if size < 10 then "0" else []
  s.digits.take 1 ++ point ++ s.digits.drop 1 ++ sign ++ lead ++ Text.ofNat size

/-- Positional notation reaches from ten thousandths to below ten quadrillions. -/
def Scientific.text (s : Scientific) : Text :=
  if -4 ≤ s.exponent ∧ s.exponent < 16 then s.positional else s.exponential

def text (x : Double) : Text :=
  let sign : Text := if x.negative then "-" else []
  if x.isInfinite then sign ++ "inf"
  else if !x.isFinite then "nan"
  else if x.magnitude = 0 then sign ++ "0.0"
  else sign ++ x.scientific.text

end Inlay.Double
