import Inlay.Proofs.Directive.Argument
import Inlay.Proofs.Json.Complete
import Inlay.Proofs.Text.Numeral

namespace Inlay.Json

/-- What can stand behind a value: the end of the text, a comma or a closing bracket. -/
inductive Delimited : Text → Prop
  | ended : Delimited []
  | comma (rest : Text) : Delimited (.ofChar ',' :: rest)
  | bracket (rest : Text) : Delimited (.ofChar ']' :: rest)
  | brace (rest : Text) : Delimited (.ofChar '}' :: rest)

namespace Numeral

theorem digits_append {spelled rest : Text} (all : ∀ c ∈ spelled, c.isDigit = true)
    (stops : ∀ c ∈ rest.head?, c.isDigit = false) : digits (spelled ++ rest) = (spelled, rest) := by
  have unread : rest.takeWhile CodePoint.isDigit = [] ∧ rest.dropWhile CodePoint.isDigit = rest := by
    cases rest with
    | nil => exact ⟨rfl, rfl⟩
    | cons c rest =>
        have notDigit := stops c rfl
        exact ⟨List.takeWhile_cons_of_neg (by simp [notDigit]),
          List.dropWhile_cons_of_neg (by simp [notDigit])⟩
  simp only [digits, List.takeWhile_append_of_pos all, List.dropWhile_append_of_pos all, unread,
    List.append_nil]

theorem digits_ofNat {rest : Text} (n : Nat) (delimited : Delimited rest) :
    digits (Text.ofNat n ++ rest) = (Text.ofNat n, rest) := by
  apply digits_append Text.isDigit_of_mem_ofNat
  cases delimited with
  | ended => nofun
  | comma | bracket | brace =>
      intro c first
      cases first
      rfl

theorem whole?_ofNat {rest : Text} (n : Nat) (delimited : Delimited rest) :
    whole? (Text.ofNat n ++ rest) = some (Text.ofNat n, rest) := by
  have spelled := digits_ofNat n delimited
  obtain ⟨c, tail, shape, digit, leading⟩ := Text.ofNat_eq_cons n
  by_cases zero : c = '0'
  · rw [leading zero, Text.ofNat_of_lt (by decide)]
    rfl
  · rw [shape, List.cons_append] at spelled ⊢
    simp only [whole?, if_neg zero, if_pos digit, spelled]

theorem scan?_of_parts {text unsigned whole afterWhole fraction afterFraction rest : Text}
    {negative : Bool} {exponent : Option Int} (readSign : sign text = (negative, unsigned))
    (readWhole : whole? unsigned = some (whole, afterWhole))
    (readFraction : fractionPart afterWhole = (fraction, afterFraction))
    (readExponent : exponentPart afterFraction = (exponent, rest)) :
    ∃ shorter, scan? text = some ⟨⟨negative, whole, fraction, exponent⟩, rest, shorter⟩ := by
  have shorter : rest.length < text.length := by
    have signBound := length_sign_le text
    have wholeBound := length_whole_lt readWhole
    have fractionBound := length_fractionPart_le afterWhole
    have exponentBound := length_exponentPart_le afterFraction
    simp only [readSign, readFraction, readExponent] at signBound fractionBound exponentBound
    omega
  refine ⟨shorter, ?_⟩
  unfold scan?
  split
  · next unread =>
      rw [readSign, readWhole] at unread
      contradiction
  · next found =>
      rw [readSign, readWhole] at found
      cases found
      simp only [readSign, readFraction, readExponent]

theorem scan?_of_whole {text whole rest : Text} (read : whole? (sign text).2 = some (whole, rest))
    (delimited : Delimited rest) :
    ∃ shorter, scan? text = some ⟨⟨(sign text).1, whole, [], none⟩, rest, shorter⟩ := by
  have noFraction : fractionPart rest = ([], rest) := by cases delimited <;> rfl
  have noExponent : exponentPart rest = (none, rest) := by cases delimited <;> rfl
  exact scan?_of_parts rfl read noFraction noExponent

theorem sign_ofInt (number : Int) (rest : Text) :
    sign (Text.ofInt number ++ rest) =
      (decide (number < 0), Text.ofNat number.natAbs ++ rest) := by
  cases number with
  | ofNat n =>
      obtain ⟨c, tail, shape, digit, _⟩ := Text.ofNat_eq_cons n
      have notMinus : c ≠ '-' := by
        intro minus
        subst minus
        contradiction
      simp [Text.ofInt, sign, shape, notMinus]
  | negSucc n =>
      have signed : Int.negSucc n < 0 := Int.negSucc_lt_zero n
      simp [Text.ofInt, sign, signed]

theorem value_of_int {number : Int} (bounded : number.natAbs < 10 ^ Text.digitLimit) :
    value ⟨decide (number < 0), Text.ofNat number.natAbs, [], none⟩ = .ok (.int number) := by
  have allowed : ¬Text.digitLimit < (Text.ofNat number.natAbs).length :=
    Nat.not_lt.mpr (Text.length_ofNat_le (by decide) bounded)
  simp only [value, and_self, if_true, if_neg allowed, Text.toNat_ofNat, decide_eq_true_eq]
  congr 2
  split <;> omega

end Numeral

/-- The names of values have no digit among their first two characters, but numerals do. -/
theorem findSome?_names_eq_none {text : Text} (digit : ∃ c ∈ text.take 2, c.isDigit = true) :
    (names.findSome? fun (name, value) => named? name value text) = none := by
  have digitless : ∀ entry ∈ names, 2 ≤ entry.1.length ∧ ∀ c ∈ entry.1, c.isDigit = false := by
    decide
  apply List.findSome?_eq_none_iff.mpr
  intro entry known
  obtain ⟨long, noDigit⟩ := digitless entry known
  cases found : named? entry.1 entry.2 text with
  | none => exact found
  | some scanned =>
      obtain ⟨c, member, isDigit⟩ := digit
      rw [(named?_sound found).1, List.take_append_of_le_length long] at member
      cases (noDigit c (List.mem_of_mem_take member)).symm.trans isDigit

theorem exists_digit_of_ofInt (number : Int) (rest : Text) :
    ∃ c ∈ (Text.ofInt number ++ rest).take 2, c.isDigit = true := by
  cases number with
  | ofNat n =>
      obtain ⟨c, tail, shape, digit, _⟩ := Text.ofNat_eq_cons n
      exact ⟨c, by simp [Text.ofInt, shape], digit⟩
  | negSucc n =>
      obtain ⟨c, tail, shape, digit, _⟩ := Text.ofNat_eq_cons (n + 1)
      exact ⟨c, by simp [Text.ofInt, shape], digit⟩

theorem scalar_ofInt {number : Int} (bounded : number.natAbs < 10 ^ Text.digitLimit) {rest : Text}
    (delimited : Delimited rest) : Gives scalar (Text.ofInt number ++ rest) (.int number) rest := by
  have unnamed := findSome?_names_eq_none (exists_digit_of_ofInt number rest)
  have whole := Numeral.whole?_ofNat number.natAbs delimited
  have signed := Numeral.sign_ofInt number rest
  obtain ⟨_, scanned⟩ := @Numeral.scan?_of_whole (Text.ofInt number ++ rest) _ _
    (by rw [signed, whole]) delimited
  rw [signed] at scanned
  apply Gives.of_map
  simp only [scalar, unnamed, scanned, Numeral.value_of_int bounded]
  rfl

theorem named?_append {α : Type} {name : Text} (nonempty : name ≠ []) (value : α) (rest : Text) :
    ∃ shorter, named? name value (name ++ rest) = some ⟨value, rest, shorter⟩ := by
  have after := Text.after?_eq_some_iff.mpr (Eq.refl (name ++ rest))
  have shorter : rest.length < (name ++ rest).length := by
    have positive := List.length_pos_iff.mpr nonempty
    rw [List.length_append]
    omega
  refine ⟨shorter, ?_⟩
  simp only [named?, after, shorter, dif_pos]

theorem scalar_name {before after : List (Text × Except Fault Value)} {name : Text} {value : Value}
    (listed : names = before ++ (name, .ok value) :: after) (nonempty : name ≠ []) (rest : Text)
    (first : ∀ entry ∈ before, named? entry.1 entry.2 (name ++ rest) = none) :
    Gives scalar (name ++ rest) value rest := by
  obtain ⟨_, named⟩ := named?_append nonempty (Except.ok value : Except Fault Value) rest
  apply Gives.of_map
  simp only [scalar, listed, List.findSome?_append, List.findSome?_eq_none_iff.mpr first,
    List.findSome?_cons, named]
  rfl

theorem scalar_of_mem_names {name : Text} {value : Value} (known : (name, .ok value) ∈ names)
    (rest : Text) : Gives scalar (name ++ rest) value rest := by
  simp only [names, List.mem_cons, Prod.mk.injEq, Except.ok.injEq, reduceCtorEq, and_false,
    or_false, List.not_mem_nil] at known
  rcases known with ⟨rfl, rfl⟩ | ⟨rfl, rfl⟩ | ⟨rfl, rfl⟩
  · exact @scalar_name [] _ _ _ rfl (by decide) rest nofun
  · exact @scalar_name [("null", _)] _ _ _ rfl (by decide) rest
      (List.forall_mem_cons.mpr ⟨rfl, nofun⟩)
  · exact @scalar_name [("null", _), ("true", _)] _ _ _ rfl (by decide) rest
      (List.forall_mem_cons.mpr ⟨rfl, List.forall_mem_cons.mpr ⟨rfl, nofun⟩⟩)

end Inlay.Json
