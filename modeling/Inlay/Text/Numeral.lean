import Inlay.Text.Basic

namespace Inlay.Text

def decimalOnto (n : Nat) (tail : Text) : Text :=
  if n < 10 then CodePoint.digit n :: tail
  else decimalOnto (n / 10) (CodePoint.digit n :: tail)
termination_by n

def ofNat (n : Nat) : Text :=
  decimalOnto n []

def ofInt : Int → Text
  | .ofNat n => ofNat n
  | .negSucc n => '-' :: ofNat (n + 1)

def toNat (digits : Text) : Nat :=
  digits.foldl (fun n c => 10 * n + c.digitValue) 0

/-- An integer with more decimal digits is neither read nor written. -/
def digitLimit : Nat :=
  4300

def isShort (number : Int) : Bool :=
  (ofNat number.natAbs).length ≤ digitLimit

/-- No text has so many characters that its length would not be short. -/
def isShortOffset (text : Text) (offset : Int) : Bool :=
  offset.natAbs ≤ text.length || isShort offset

def digitComplaint (detail : Text) : Text :=
  "Exceeds the limit (" ++ ofNat digitLimit ++ " digits) for integer string conversion" ++ detail ++
    "; use sys.set_int_max_str_digits() to increase the limit"

def hexadecimal : (width : Nat) → Nat → Text
  | 0, _ => []
  | width + 1, n => hexadecimal width (n / 16) ++ [CodePoint.hexDigit n]

theorem decimalOnto_append (n : Nat) (tail : Text) :
    decimalOnto n tail = ofNat n ++ tail := by
  induction n using Nat.strongRecOn generalizing tail with
  | ind n induction =>
      by_cases small : n < 10
      · rw [decimalOnto, if_pos small, ofNat, decimalOnto, if_pos small]
        rfl
      · have unfolded : ofNat n = ofNat (n / 10) ++ [CodePoint.digit n] := by
          rw [ofNat, decimalOnto, if_neg small]
          exact induction _ (by omega) _
        rw [decimalOnto, if_neg small, induction _ (by omega), unfolded, List.append_assoc]
        rfl

theorem ofNat_of_lt {n : Nat} (small : n < 10) : ofNat n = [CodePoint.digit n] := by
  rw [ofNat, decimalOnto, if_pos small]

theorem ofNat_of_le {n : Nat} (large : 10 ≤ n) :
    ofNat n = ofNat (n / 10) ++ [CodePoint.digit n] := by
  conv => lhs; rw [ofNat, decimalOnto, if_neg (by omega)]
  exact decimalOnto_append _ _

theorem toNat_append_digit (digits : Text) (n : Nat) :
    toNat (digits ++ [CodePoint.digit n]) = 10 * toNat digits + n % 10 := by
  simp [toNat, CodePoint.digitValue, CodePoint.digit]

@[simp] theorem toNat_ofNat (n : Nat) : toNat (ofNat n) = n := by
  induction n using Nat.strongRecOn with
  | ind n induction =>
      by_cases small : n < 10
      · rw [ofNat_of_lt small]
        have spelled := toNat_append_digit [] n
        simp only [toNat, List.nil_append, List.foldl_nil] at spelled ⊢
        omega
      · rw [ofNat_of_le (by omega), toNat_append_digit, induction (n / 10) (by omega)]
        omega

theorem isShortOffset_of_index {text : Text} {offset : Int}
    (index : 0 ≤ offset ∧ offset ≤ text.length) : text.isShortOffset offset = true := by
  have bounded : offset.natAbs ≤ text.length := by omega
  simp [isShortOffset, bounded]

end Inlay.Text
