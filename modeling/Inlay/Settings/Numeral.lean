import Inlay.Settings.Basic
import Inlay.Text.Numeral
import Inlay.Text.Space

/-!
Integers in the texts of settings. A text is read as it stands or, failing that, in its plain form:
without a plus sign, a fraction of zeros, leading zeros, and underscores that group its digits.
-/

namespace Inlay.Settings.Numeral

def maximalLength : Nat :=
  4300

def splitMinus : Text → Bool × Text
  | [] => (false, [])
  | c :: rest => if c = '-' then (true, rest) else (false, c :: rest)

/-- Reads digits without leading zeros, after an optional minus sign. Digits that run on for too
long are reported before anything that follows them. -/
def read (text : Text) : Except Problem Int :=
  let (negative, size) := splitMinus text
  let digits : Text := size.takeWhile CodePoint.isDigit
  if digits.head? = some (CodePoint.ofChar '0') then
    if size.length = 1 then .ok 0 else .error .notANumeral
  else if maximalLength < (if negative then 1 else 0) + digits.length then .error .tooLarge
  else if digits = [] ∨ digits.length < size.length then .error .notANumeral
  else .ok (if negative then -digits.toNat else digits.toNat)

/-- Drops a plus sign. No minus sign may follow it. -/
def dropPlus? : Text → Option Text
  | [] => some []
  | c :: rest =>
      if c = '+' then
        if (splitMinus rest).1 then none else some rest
      else some (c :: rest)

/-- Drops a decimal point with nothing but zeros behind it, at least one. -/
def dropFraction (text : Text) : Text :=
  let isPoint (c : CodePoint) : Bool := c = '.'
  let zeros := (text.dropWhile (!isPoint ·)).drop 1
  if zeros ≠ [] ∧ zeros.all (· = CodePoint.ofChar '0') then text.takeWhile (!isPoint ·) else text

/-- What follows leading zeros and the underscores among them, from another digit or a minus sign
on. At the end of the text the last character dropped is kept. -/
def afterZeros? (last : CodePoint) : Text → Option Text
  | [] => some [last]
  | c :: rest =>
      if c = '0' ∨ c = '_' then afterZeros? c rest
      else if c.isDigit ∨ c = '-' then some (c :: rest)
      else none

def dropZeros? : Text → Option Text
  | [] => none
  | c :: rest =>
      if c = '0' then afterZeros? c rest
      else if c.isDigit then some (c :: rest)
      else none

def hasDoubleUnderscore : Text → Bool
  | c :: d :: rest => (c = '_' && d = '_') || hasDoubleUnderscore (d :: rest)
  | _ => false

/-- Drops the underscores if each of them stands between two other characters. -/
def dropUnderscores (text : Text) : Text :=
  let underscore := CodePoint.ofChar '_'
  if text.head? = some underscore ∨ text.getLast? = some underscore ∨ hasDoubleUnderscore text then
    text
  else text.filter (· ≠ underscore)

def plain? (text : Text) : Option Text :=
  (dropPlus? text).bind fun unsigned =>
    let (negative, size) := splitMinus (dropFraction unsigned)
    (dropZeros? size).map fun digits =>
      dropUnderscores (if negative then '-' :: digits else digits)

end Numeral

/-- The integer that a text spells, with white space around it ignored. -/
def integerOfText (text : Text) : Except Problem Int :=
  if text.any CodePoint.isSurrogate then .error .notUnicode
  else
    let numeral := text.trim
    match Numeral.read numeral with
    | .error .notANumeral =>
        match Numeral.plain? numeral with
        | some plain => Numeral.read plain
        | none => .error .notANumeral
    | result => result

end Inlay.Settings
