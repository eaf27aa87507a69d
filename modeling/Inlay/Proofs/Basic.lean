import Inlay.Text.Basic

namespace Inlay

theorem map_eq_ok_iff {α β ε : Type} {f : α → β} {attempt : Except ε α} {result : β} :
    attempt.map f = .ok result ↔ ∃ value, attempt = .ok value ∧ f value = result := by
  cases attempt with
  | error fault => simp [Except.map]
  | ok value => simp [Except.map]

theorem map_eq_error_iff {α β ε : Type} {f : α → β} {attempt : Except ε α} {fault : ε} :
    attempt.map f = .error fault ↔ attempt = .error fault := by
  cases attempt with
  | error fault => simp [Except.map]
  | ok value => simp [Except.map]

theorem mapError_eq_ok_iff {α ε ζ : Type} {f : ε → ζ} {attempt : Except ε α} {result : α} :
    attempt.mapError f = .ok result ↔ attempt = .ok result := by
  constructor
  · intro succeeded
    cases attempt with
    | error fault => cases succeeded
    | ok value => exact congrArg Except.ok (Except.ok.inj succeeded)
  · rintro rfl
    rfl

theorem mapError_eq_error_iff {α ε ζ : Type} {f : ε → ζ} {attempt : Except ε α} {fault : ζ} :
    attempt.mapError f = .error fault ↔ ∃ cause, attempt = .error cause ∧ f cause = fault := by
  constructor
  · intro failed
    cases attempt with
    | error cause => exact ⟨cause, rfl, Except.error.inj failed⟩
    | ok value => cases failed
  · rintro ⟨cause, rfl, rfl⟩
    rfl

theorem append_inj_of_takeWhile {α : Type} {accepts : α → Bool} {lead lead' rest rest' : List α}
    (same : lead ++ rest = lead' ++ rest') (all : ∀ item ∈ lead, accepts item = true)
    (all' : ∀ item ∈ lead', accepts item = true) (ends : rest.takeWhile accepts = [])
    (ends' : rest'.takeWhile accepts = []) : lead = lead' ∧ rest = rest' := by
  have sameLead := congrArg (List.takeWhile accepts) same
  rw [List.takeWhile_append_of_pos all, List.takeWhile_append_of_pos all', ends, ends',
    List.append_nil, List.append_nil] at sameLead
  subst sameLead
  exact ⟨rfl, List.append_cancel_left same⟩

namespace Text

theorem newline_notMem_of_isBlank {blanks : Text} (blank : ∀ c ∈ blanks, c.isBlank = true) :
    .newline ∉ blanks := by
  intro member
  have isBlank := blank .newline member
  contradiction

variable {text : Text} {start stop : Int}

theorem slice_append_drop (ordered : start ≤ stop) :
    text.slice start stop ++ text.drop stop.toNat = text.drop start.toNat := by
  have reached : stop.toNat = start.toNat + (stop.toNat - start.toNat) := by omega
  rw [slice, reached, ← List.drop_drop, Nat.add_sub_cancel_left, List.take_append_drop]

theorem length_slice (nonnegative : 0 ≤ start) (ordered : start ≤ stop)
    (within : stop ≤ text.length) : ((text.slice start stop).length : Int) = stop - start := by
  simp only [slice, List.length_take, List.length_drop]
  omega

theorem head?_slice (nonnegative : 0 ≤ start) (ordered : start < stop) :
    (text.slice start stop).head? = text[start.toNat]? := by
  have nonempty : stop.toNat - start.toNat ≠ 0 := by omega
  rw [slice, List.head?_take, if_neg nonempty, List.head?_drop]

theorem getLast?_slice (nonnegative : 0 ≤ start) (ordered : start < stop)
    (within : stop ≤ text.length) :
    (text.slice start stop).getLast? = text[(stop - 1).toNat]? := by
  have length := length_slice nonnegative (Int.le_of_lt ordered) within
  have last : (text.slice start stop).length - 1 = (stop - 1).toNat - start.toNat := by omega
  rw [List.getLast?_eq_getElem?, last, slice, List.getElem?_take, if_pos (by omega),
    List.getElem?_drop]
  congr 1
  omega

end Text

end Inlay
