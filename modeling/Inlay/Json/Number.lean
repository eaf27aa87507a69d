import Inlay.Double.Decimal
import Inlay.Json.Fault
import Inlay.Json.Scanned
import Inlay.Value.Basic

/-!
Numbers. A numeral is as long as it can be; a point or an exponent sign without digits after it
does not belong to it.
-/

namespace Inlay.Json

structure Numeral where
  negative : Bool
  whole : Text
  fraction : Text
  exponent : Option Int
deriving DecidableEq

namespace Numeral

def digits (text : Text) : Text × Text :=
  (text.takeWhile CodePoint.isDigit, text.dropWhile CodePoint.isDigit)

def sign (text : Text) : Bool × Text :=
  match text with
  | [] => (false, [])
  | c :: rest => if c = '-' then (true, rest) else (false, c :: rest)

def whole? (text : Text) : Option (Text × Text) :=
  match text with
  | [] => none
  | c :: rest =>
      if c = '0' then some ([c], rest)
      else if c.isDigit then some (digits (c :: rest))
      else none

def fractionPart (text : Text) : Text × Text :=
  match text with
  | [] => ([], [])
  | c :: rest =>
      if c = '.' ∧ (digits rest).1 ≠ [] then digits rest else ([], c :: rest)

def exponentSign (text : Text) : Bool × Text :=
  match text with
  | [] => (false, [])
  | c :: rest =>
      if c = '-' then (true, rest) else if c = '+' then (false, rest) else (false, c :: rest)

def exponentDigits? (text : Text) : Option (Int × Text) :=
  let spelled := digits (exponentSign text).2
  let size : Int := Text.toNat spelled.1
  if spelled.1 = [] then none
  else some (if (exponentSign text).1 then -size else size, spelled.2)

def exponentPart (text : Text) : Option Int × Text :=
  match text with
  | [] => (none, [])
  | c :: rest =>
      if c = 'e' ∨ c = 'E' then
        match exponentDigits? rest with
        | some (exponent, rest) => (some exponent, rest)
        | none => (none, c :: rest)
      else (none, c :: rest)

theorem length_digits_le (text : Text) : (digits text).2.length ≤ text.length :=
  (List.dropWhile_suffix CodePoint.isDigit).length_le

theorem length_sign_le (text : Text) : (sign text).2.length ≤ text.length := by
  unfold sign
  split
  · exact Nat.le_refl _
  · split <;> simp

theorem length_whole_lt {text spelled rest : Text} (found : whole? text = some (spelled, rest)) :
    rest.length < text.length := by
  unfold whole? at found
  split at found
  · contradiction
  · next c tail =>
      split at found
      · cases found
        simp
      · split at found
        · next digit =>
            cases found
            have bound := length_digits_le tail
            simp only [digits] at bound
            simp only [List.dropWhile_cons_of_pos digit, List.length_cons]
            omega
        · contradiction

theorem length_fractionPart_le (text : Text) : (fractionPart text).2.length ≤ text.length := by
  unfold fractionPart
  split
  · exact Nat.le_refl _
  · next c rest =>
      split
      · have bound := length_digits_le rest
        simp only [List.length_cons]
        omega
      · exact Nat.le_refl _

theorem length_exponentSign_le (text : Text) : (exponentSign text).2.length ≤ text.length := by
  unfold exponentSign
  split
  · exact Nat.le_refl _
  · split
    · simp
    · split <;> simp

theorem length_exponentDigits_le {text rest : Text} {exponent : Int}
    (found : exponentDigits? text = some (exponent, rest)) : rest.length ≤ text.length := by
  by_cases empty : (digits (exponentSign text).2).1 = []
  · simp [exponentDigits?, empty] at found
  · simp only [exponentDigits?, empty, if_false, Option.some.injEq, Prod.mk.injEq] at found
    rw [← found.2]
    exact Nat.le_trans (length_digits_le _) (length_exponentSign_le text)

theorem length_exponentPart_le (text : Text) : (exponentPart text).2.length ≤ text.length := by
  unfold exponentPart
  split
  · exact Nat.le_refl _
  · next c rest =>
      split
      · split
        · next found =>
            have bound := length_exponentDigits_le found
            simp only [List.length_cons]
            omega
        · exact Nat.le_refl _
      · exact Nat.le_refl _

def scan? (text : Text) : Option (Scanned Numeral text) :=
  match found : whole? (sign text).2 with
  | none => none
  | some (whole, afterWhole) =>
      let fraction := fractionPart afterWhole
      let exponent := exponentPart fraction.2
      some ⟨⟨(sign text).1, whole, fraction.1, exponent.1⟩, exponent.2,
        Nat.lt_of_le_of_lt
          (Nat.le_trans (length_exponentPart_le _) (length_fractionPart_le _))
          (Nat.lt_of_lt_of_le (length_whole_lt found) (length_sign_le text))⟩

/-- A numeral with a fraction or an exponent is a floating-point number, any other an integer. -/
def value (numeral : Numeral) : Except Fault Value :=
  let size := Text.toNat numeral.whole
  if numeral.fraction = [] ∧ numeral.exponent = none then
    if Text.digitLimit < numeral.whole.length then .error (.tooManyDigits numeral.whole.length)
    else .ok (.int (if numeral.negative then -size else size))
  else
    .ok (.real (.ofDecimal numeral.negative (Text.toNat (numeral.whole ++ numeral.fraction))
      (numeral.exponent.getD 0 - numeral.fraction.length)))

end Numeral

end Inlay.Json
