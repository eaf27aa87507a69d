import Mathlib.Algebra.Group.Nat.Defs
import Inlay.Text.Numeral

namespace Inlay.Text

theorem isDigit_of_mem_ofNat {n : Nat} : ∀ c ∈ ofNat n, c.isDigit = true := by
  have digit (n : Nat) : (CodePoint.digit n).isDigit = true := by
    have last : 0x30 + n % 10 ≤ 0x39 := by omega
    simp [CodePoint.isDigit, CodePoint.digit, last]
  induction n using Nat.strongRecOn with
  | ind n induction =>
      by_cases small : n < 10
      · simp [ofNat_of_lt small, digit]
      · rw [ofNat_of_le (by omega)]
        intro c member
        cases List.mem_append.mp member with
        | inl earlier => exact induction (n / 10) (by omega) c earlier
        | inr last =>
            rw [List.mem_singleton.mp last]
            exact digit n

theorem ofNat_eq_cons (n : Nat) :
    ∃ c tail, ofNat n = c :: tail ∧ c.isDigit = true ∧ (c = '0' → n = 0) := by
  have nonzero : ∃ c tail, ofNat n = c :: tail ∧ (c = '0' → n = 0) := by
    induction n using Nat.strongRecOn with
    | ind n induction =>
        by_cases small : n < 10
        · refine ⟨_, _, ofNat_of_lt small, ?_⟩
          intro zero
          have same : 0x30 + n % 10 = 0x30 := congrArg CodePoint.val zero
          omega
        · obtain ⟨c, tail, shape, leading⟩ := induction (n / 10) (by omega)
          refine ⟨c, tail ++ [.digit n], ?_, ?_⟩
          · rw [ofNat_of_le (by omega), shape, List.cons_append]
          · intro zero
            have none := leading zero
            omega
  obtain ⟨c, tail, shape, leading⟩ := nonzero
  have first : c ∈ ofNat n := by
    rw [shape]
    exact List.mem_cons_self ..
  exact ⟨c, tail, shape, isDigit_of_mem_ofNat c first, leading⟩

theorem length_ofNat_le {n count : Nat} (positive : 0 < count) (bounded : n < 10 ^ count) :
    (ofNat n).length ≤ count := by
  induction count generalizing n with
  | zero => contradiction
  | succ count induction =>
      by_cases small : n < 10
      · rw [ofNat_of_lt small]
        exact Nat.le_add_left 1 count
      · have shorter : n / 10 < 10 ^ count := by
          rw [Nat.pow_succ, Nat.mul_comm] at bounded
          exact Nat.div_lt_of_lt_mul bounded
        have further : 0 < count := by
          apply Nat.pos_of_ne_zero
          intro none
          rw [none, Nat.pow_zero] at shorter
          omega
        have bound := induction further shorter
        rw [ofNat_of_le (by omega), List.length_append, List.length_singleton]
        omega

end Inlay.Text
