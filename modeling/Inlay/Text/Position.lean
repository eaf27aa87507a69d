import Inlay.Text.Numeral

namespace Inlay

structure Position where
  line : Int
  column : Int
deriving DecidableEq

structure OffsetFault where
  offset : Int
  length : Nat
deriving DecidableEq

def OffsetFault.message (fault : OffsetFault) : Text :=
  if Text.isShort fault.offset then
    "Invalid offset " ++ Text.ofInt fault.offset ++
      ". Offset is pointing outside of text (length " ++ Text.ofNat fault.length ++ ")."
  else Text.digitComplaint []

namespace Position

def text (position : Position) : Text :=
  "[" ++ Text.ofInt position.line ++ ":" ++ Text.ofInt position.column ++ "]"

/-- The position just after a text. -/
def after (before : Text) : Position where
  line := before.count .newline + 1
  column := (before.reverse.takeWhile (· ≠ .newline)).length + 1

/-- The position of an offset, which may also be the end of the text. -/
def ofOffset (text : Text) (offset : Int) : Except OffsetFault Position :=
  if 0 ≤ offset ∧ offset ≤ text.length then .ok (after (text.take offset.toNat))
  else .error ⟨offset, text.length⟩

end Position

end Inlay
