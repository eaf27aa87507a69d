import Inlay.Proofs.Directive.Grammar
import Inlay.Proofs.Text.Numeral
import Inlay.Proofs.Value.Short

/-!
The numbers of a directive line are short, as a numeral with too many digits is not read.
-/

namespace Inlay

theorem Text.foldl_digits_lt {digits : Text} (all : ∀ c ∈ digits, c.isDigit = true) (lead : Nat) :
    digits.foldl (fun n c => 10 * n + c.digitValue) lead < (lead + 1) * 10 ^ digits.length := by
  induction digits generalizing lead with
  | nil => simp
  | cons c digits induction =>
      obtain ⟨digit, allRest⟩ := List.forall_mem_cons.mp all
      have bounded : c.digitValue < 10 := by
        simp only [CodePoint.isDigit, Bool.and_eq_true, decide_eq_true_eq] at digit
        simp only [CodePoint.digitValue]
        omega
      calc
        digits.foldl (fun n c => 10 * n + c.digitValue) (10 * lead + c.digitValue)
        _ < (10 * lead + c.digitValue + 1) * 10 ^ digits.length := induction allRest _
        _ ≤ ((lead + 1) * 10) * 10 ^ digits.length := Nat.mul_le_mul_right _ (by omega)
        _ = (lead + 1) * 10 ^ (digits.length + 1) := by rw [Nat.mul_assoc, ← Nat.pow_succ']

theorem Text.isShort_of_digits {digits : Text} (all : ∀ c ∈ digits, c.isDigit = true)
    (bounded : digits.length ≤ digitLimit) {number : Int}
    (spelled : number.natAbs = toNat digits) : isShort number := by
  have small : toNat digits < 10 ^ digitLimit := by
    have fewer := foldl_digits_lt all 0
    rw [Nat.zero_add, Nat.one_mul] at fewer
    exact Nat.lt_of_lt_of_le fewer (Nat.pow_le_pow_right (by decide) bounded)
  rw [isShort, spelled, decide_eq_true_eq]
  exact length_ofNat_le (by decide) small

namespace Json

theorem Numeral.isDigit_of_whole? {text whole rest : Text}
    (read : whole? text = some (whole, rest)) : ∀ c ∈ whole, c.isDigit = true := by
  cases text with
  | nil => contradiction
  | cons c text =>
      simp only [whole?] at read
      split at read
      · next zero =>
          cases read
          rw [zero]
          decide
      · split at read
        · cases read
          exact List.all_eq_true.mp List.all_takeWhile
        · contradiction

theorem Numeral.isShort_value {text : Text} {found : Scanned Numeral text} {value : Value}
    (scanned : scan? text = some found) (read : found.value.value = .ok value) :
    value.isShort := by
  unfold scan? at scanned
  split at scanned
  · contradiction
  rename_i whole afterWhole readWhole
  cases scanned
  simp only [Numeral.value] at read
  split at read
  · split at read
    · contradiction
    · next bounded =>
        cases read
        apply Text.isShort_of_digits (isDigit_of_whole? readWhole) (Nat.not_lt.mp bounded)
        split <;> simp
  · cases read
    rfl

theorem isShort_names : ∀ entry ∈ names, ∀ value : Value, entry.2 = .ok value → value.isShort := by
  intro entry known value given
  simp only [names, List.mem_cons, List.not_mem_nil, or_false] at known
  rcases known with rfl | rfl | rfl | rfl | rfl | rfl <;> cases given <;> rfl

theorem isShort_scalar {text : Text} {found : Scanned Value text}
    (read : scalar text = .ok found) : found.value.isShort := by
  simp only [scalar] at read
  split at read
  · next named search =>
      obtain ⟨entry, known, namedEntry⟩ := List.exists_of_findSome?_eq_some search
      obtain ⟨value, given, rfl⟩ := map_eq_ok_iff.mp read
      exact isShort_names entry known value ((named?_sound namedEntry).2.symm.trans given)
  · split at read
    · next numeral scanned =>
        obtain ⟨value, given, rfl⟩ := map_eq_ok_iff.mp read
        exact Numeral.isShort_value scanned given
    · contradiction

def Phrase.isShort : Phrase → Bool
  | value found => found.isShort
  | elements values => Value.allShort values
  | members found => Fields.isShort found

theorem Reads.isShort {phrase : Phrase} {text rest : Text} (reads : Reads phrase text rest) :
    phrase.isShort := by
  induction reads with
  | string | emptyObject | emptyArray => rfl
  | object _ short => exact Fields.isShort_overlay rfl short
  | array _ short => exact short
  | scalar _ _ _ read => exact isShort_scalar read
  | lastElement _ _ short => simpa [Phrase.isShort, Value.allShort] using short
  | element _ _ _ short shortMore =>
      simp only [Phrase.isShort, Value.allShort, Bool.and_eq_true] at short shortMore ⊢
      exact ⟨short, shortMore⟩
  | lastMember _ _ _ _ short => simpa [Phrase.isShort, Fields.isShort] using short
  | member _ _ _ _ _ short shortMore =>
      simp only [Phrase.isShort, Fields.isShort, Bool.and_eq_true] at short shortMore ⊢
      exact ⟨short, shortMore⟩

theorem isShort_of_parse {text : Text} {parsed : Value} (succeeded : parse text = .ok parsed) :
    parsed.isShort := by
  obtain ⟨rest, reads, _⟩ := reads_of_parse succeeded
  exact reads.isShort

end Json

namespace Command

def isShort : Command → Bool
  | assign fields | merge fields => fields.isShort
  | emit arguments => Value.allShort arguments
  | beginBlock | endBlock => true

theorem Spells.isShort {body : Text} {command : Command} (spells : Spells body command) :
    command.isShort := by
  cases spells with
  | beginBlock => rfl
  | endBlock => rfl
  | call _ argument =>
      cases argument with
      | assign parsed => exact Json.isShort_of_parse parsed
      | merge parsed => exact Json.isShort_of_parse parsed
      | emit parsed => exact Json.isShort_of_parse parsed

end Command

end Inlay
