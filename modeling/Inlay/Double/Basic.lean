
namespace Inlay

structure Double where
  bits : UInt64
deriving DecidableEq

namespace Double

def signPattern : Nat := 0x8000000000000000

/-- The unit of the exponent field, and the leading bit that a significand leaves out. -/
def leadingBit : Nat := 0x10000000000000

/-- The bit pattern of positive infinity. Larger patterns without the sign bit are not numbers. -/
def infinityPattern : Nat := 0x7FF0000000000000

def negative (x : Double) : Bool :=
  signPattern ≤ x.bits.toNat

def magnitude (x : Double) : Nat :=
  x.bits.toNat % signPattern

def isFinite (x : Double) : Bool :=
  x.magnitude < infinityPattern

def isInfinite (x : Double) : Bool :=
  x.magnitude == infinityPattern

def ofMagnitude (negative : Bool) (magnitude : Nat) : Double :=
  ⟨(if negative then signPattern + magnitude else magnitude).toUInt64⟩

/-- A finite number is its significand times two to its exponent, apart from the sign. -/
def significand (x : Double) : Nat :=
  if x.magnitude < leadingBit then x.magnitude else x.magnitude % leadingBit + leadingBit

def exponent (x : Double) : Int :=
  if x.magnitude < leadingBit then -1074 else x.magnitude / leadingBit - 1075

def toInt? (x : Double) : Option Int :=
  let size : Option Nat :=
    match x.exponent with
    | .ofNat e => some (x.significand * Nat.pow 2 e)
    | .negSucc e =>
        let unit := Nat.pow 2 (e + 1)
        if x.significand % unit = 0 then some (x.significand / unit) else none
  size.map fun n => if x.negative then -n else n

end Double

end Inlay
