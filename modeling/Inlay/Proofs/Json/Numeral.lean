import Inlay.Proofs.Json.Scalar

/-!
Numerals in other surroundings. A numeral is as long as it can be, so it is read in the same way in
front of anything with which it cannot go on.
-/

namespace Inlay.Json

namespace Numeral

theorem digits_spelled (text : Text) :
    text = (digits text).1 ++ (digits text).2 ∧ ∀ c ∈ (digits text).1, c.isDigit = true :=
  ⟨List.takeWhile_append_dropWhile.symm, List.all_eq_true.mp List.all_takeWhile⟩

theorem whole?_spelled {text whole rest : Text} (read : whole? text = some (whole, rest)) :
    (∃ c more, whole = c :: more ∧ c.isDigit = true) ∧ text = whole ++ rest ∧
      ∀ rest', (∀ c ∈ rest'.head?, c.isDigit = false) →
        whole? (whole ++ rest') = some (whole, rest') := by
  cases text with
  | nil => contradiction
  | cons c text =>
      simp only [whole?] at read
      split at read
      · next zero =>
          subst zero
          cases read
          exact ⟨⟨_, _, rfl, rfl⟩, rfl, fun _ _ => rfl⟩
      · next notZero =>
          split at read
          · next digit =>
              obtain rfl := congrArg Prod.fst (Option.some.inj read)
              obtain rfl := congrArg Prod.snd (Option.some.inj read)
              obtain ⟨same, all⟩ := digits_spelled (c :: text)
              have head : (digits (c :: text)).1 = c :: (digits text).1 :=
                List.takeWhile_cons_of_pos digit
              refine ⟨⟨_, _, head, digit⟩, same, fun rest' stops => ?_⟩
              have again := digits_append all stops
              rw [head, List.cons_append] at again ⊢
              simp only [whole?, if_neg notZero, if_pos digit, again]
          · contradiction

theorem ne_of_isDigit {c d : CodePoint} (digit : d.isDigit = true) (mark : c.isDigit = false) :
    d ≠ c := by
  intro same
  rw [same, mark] at digit
  contradiction

theorem sign_spelled (text : Text) :
    ∃ lead, lead.length ≤ 1 ∧ text = lead ++ (sign text).2 ∧ ∀ d tail, d.isDigit = true →
      sign (lead ++ d :: tail) = ((sign text).1, d :: tail) := by
  have unsigned (d : CodePoint) (tail : Text) (digit : d.isDigit = true) :
      sign (d :: tail) = (false, d :: tail) := by
    rw [sign, if_neg (ne_of_isDigit digit rfl)]
  unfold sign
  split
  · exact ⟨[], Nat.zero_le 1, rfl, unsigned⟩
  · next c rest =>
      split
      · next minus =>
          subst minus
          exact ⟨['-'], Nat.le_refl 1, rfl, fun _ _ _ => rfl⟩
      · exact ⟨[], Nat.zero_le 1, rfl, unsigned⟩

theorem exponentSign_spelled (text : Text) :
    ∃ lead, text = lead ++ (exponentSign text).2 ∧ ∀ d tail, d.isDigit = true →
      exponentSign (lead ++ d :: tail) = ((exponentSign text).1, d :: tail) := by
  have unsigned (d : CodePoint) (tail : Text) (digit : d.isDigit = true) :
      exponentSign (d :: tail) = (false, d :: tail) := by
    rw [exponentSign, if_neg (ne_of_isDigit digit rfl), if_neg (ne_of_isDigit digit rfl)]
  unfold exponentSign
  split
  · exact ⟨[], rfl, unsigned⟩
  · next c rest =>
      split
      · next minus =>
          subst minus
          exact ⟨['-'], rfl, fun _ _ _ => rfl⟩
      · split
        · next plus =>
            subst plus
            exact ⟨['+'], rfl, fun _ _ _ => rfl⟩
        · exact ⟨[], rfl, unsigned⟩

/-- A part of a numeral that may be missing, starts in a certain way and ends with digits, is read
apart from what follows it. -/
def Detaches {α : Type} (starts : CodePoint → Prop) (part : Text → α × Text) (text : Text) : Prop :=
  ∃ spelled, text = spelled ++ (part text).2 ∧ (∀ c ∈ spelled.head?, starts c) ∧
    ∀ rest', (∀ c ∈ rest'.head?, c.isDigit = false ∧ ¬starts c) →
      part (spelled ++ rest') = ((part text).1, rest')

section

variable {α : Type} {starts : CodePoint → Prop} {part : Text → α × Text}

theorem detaches_of_absent {text : Text} {value : α} (absent : part text = (value, text))
    (anywhere : ∀ rest', (∀ c ∈ rest'.head?, ¬starts c) → part rest' = (value, rest')) :
    Detaches starts part text := by
  refine ⟨[], by rw [absent, List.nil_append], nofun, fun rest' stops => ?_⟩
  rw [absent]
  exact anywhere rest' fun c first => (stops c first).2

theorem detaches_of_present {c : CodePoint} {spelled rest : Text} {value : α}
    (present : part (c :: (spelled ++ rest)) = (value, rest)) (start : starts c)
    (anywhere : ∀ rest', (∀ d ∈ rest'.head?, d.isDigit = false) →
      part (c :: (spelled ++ rest')) = (value, rest')) :
    Detaches starts part (c :: (spelled ++ rest)) := by
  rw [Detaches, present]
  refine ⟨c :: spelled, rfl, ?_, fun rest' stops => ?_⟩
  · intro d first
    rwa [← Option.some.inj first]
  · exact anywhere rest' fun d first => (stops d first).1

end

theorem fractionPart_detaches (text : Text) : Detaches (· = '.') fractionPart text := by
  have anywhere (rest' : Text) (stops : ∀ c ∈ rest'.head?, ¬c = '.') :
      fractionPart rest' = ([], rest') := by
    cases rest' with
    | nil => rfl
    | cons c rest' => simp [fractionPart, stops c rfl]
  cases text with
  | nil => exact detaches_of_absent rfl anywhere
  | cons c tail =>
      by_cases present : c = '.' ∧ (digits tail).1 ≠ []
      · obtain ⟨rfl, nonempty⟩ := present
        obtain ⟨same, all⟩ := digits_spelled tail
        have here : fractionPart (.ofChar '.' :: ((digits tail).1 ++ (digits tail).2)) =
            ((digits tail).1, (digits tail).2) := by
          rw [← same]
          simp [fractionPart, nonempty]
        rw [same]
        refine detaches_of_present here rfl fun rest' stops => ?_
        simp [fractionPart, digits_append all stops, nonempty]
      · exact detaches_of_absent (by simp only [fractionPart, if_neg present]) anywhere

theorem exponentDigits?_spelled {text rest : Text} {exponent : Int}
    (read : exponentDigits? text = some (exponent, rest)) :
    ∃ spelled, text = spelled ++ rest ∧ ∀ rest', (∀ c ∈ rest'.head?, c.isDigit = false) →
      exponentDigits? (spelled ++ rest') = some (exponent, rest') := by
  simp only [exponentDigits?] at read
  split at read
  · contradiction
  · next nonempty =>
      cases read
      obtain ⟨lead, same, signed⟩ := exponentSign_spelled text
      obtain ⟨sameDigits, all⟩ := digits_spelled (exponentSign text).2
      obtain ⟨d, more, head⟩ := List.exists_cons_of_ne_nil nonempty
      refine ⟨lead ++ (digits (exponentSign text).2).1, ?_, fun rest' stops => ?_⟩
      · rw [List.append_assoc, ← sameDigits, ← same]
      · have again := digits_append all stops
        have signedAgain := signed d (more ++ rest') (all d (by simp [head]))
        rw [← List.cons_append, ← head] at signedAgain
        rw [List.append_assoc]
        simp only [exponentDigits?, signedAgain, again, if_neg nonempty]

theorem exponentPart_detaches (text : Text) :
    Detaches (fun c => c = 'e' ∨ c = 'E') exponentPart text := by
  have anywhere (rest' : Text) (stops : ∀ c ∈ rest'.head?, ¬(c = 'e' ∨ c = 'E')) :
      exponentPart rest' = (none, rest') := by
    cases rest' with
    | nil => rfl
    | cons c rest' => simp only [exponentPart, if_neg (stops c rfl)]
  cases text with
  | nil => exact detaches_of_absent rfl anywhere
  | cons c tail =>
      by_cases letter : c = 'e' ∨ c = 'E'
      · cases read : exponentDigits? tail with
        | none =>
            have here : exponentPart (c :: tail) = (none, c :: tail) := by
              simp only [exponentPart, if_pos letter, read]
            exact detaches_of_absent here anywhere
        | some found =>
            obtain ⟨exponent, rest⟩ := found
            obtain ⟨spelled, rfl, again⟩ := exponentDigits?_spelled read
            have here : exponentPart (c :: (spelled ++ rest)) = (some exponent, rest) := by
              simp only [exponentPart, if_pos letter, read]
            refine detaches_of_present here letter fun rest' stops => ?_
            simp only [exponentPart, if_pos letter, again rest' stops]
      · exact detaches_of_absent (by simp only [exponentPart, if_neg letter]) anywhere

def goesOn (c : CodePoint) : Bool :=
  c.isDigit || c = '.' || c = 'e' || c = 'E'

theorem forall_mem_head?_append {holds : CodePoint → Prop} {text rest : Text}
    (first : ∀ c ∈ text.head?, holds c) (next : ∀ c ∈ rest.head?, holds c) :
    ∀ c ∈ (text ++ rest).head?, holds c := by
  cases text with
  | nil => exact next
  | cons d text => exact first

theorem scan?_spelled {text : Text} {found : Scanned Numeral text}
    (read : scan? text = some found) :
    ∃ spelled, text = spelled ++ found.rest ∧
      (∀ rest', ∃ c ∈ (spelled ++ rest').take 2, c.isDigit = true) ∧
      ∀ rest', (∀ c ∈ rest'.head?, goesOn c = false) →
        ∃ shorter, scan? (spelled ++ rest') = some ⟨found.value, rest', shorter⟩ := by
  unfold scan? at read
  split at read
  · contradiction
  rename_i whole afterWhole readWhole
  cases read
  obtain ⟨lead, short, sameText, signed⟩ := sign_spelled text
  obtain ⟨⟨d, more, head, digit⟩, sameWhole, wholeAgain⟩ := whole?_spelled readWhole
  obtain ⟨fraction, sameFraction, pointed, fractionAgain⟩ := fractionPart_detaches afterWhole
  obtain ⟨exponent, sameExponent, lettered, exponentAgain⟩ :=
    exponentPart_detaches (fractionPart afterWhole).2
  refine ⟨lead ++ (whole ++ (fraction ++ exponent)), ?_, fun rest' => ⟨d, ?_, digit⟩, ?_⟩
  · simp only [List.append_assoc]
    rw [← sameExponent, ← sameFraction, ← sameWhole, ← sameText]
  · rw [head]
    cases lead with
    | nil => simp
    | cons first lead =>
        obtain rfl : lead = [] := by simpa using short
        simp
  · intro rest' ends
    have afterExponent : ∀ c ∈ rest'.head?,
        c.isDigit = false ∧ ¬c = '.' ∧ ¬(c = 'e' ∨ c = 'E') := by
      intro c first
      simpa [goesOn, and_assoc] using ends c first
    have afterFraction : ∀ c ∈ (exponent ++ rest').head?, c.isDigit = false ∧ ¬c = '.' := by
      apply forall_mem_head?_append
      · intro c first
        rcases lettered c first with rfl | rfl <;> exact ⟨rfl, by decide⟩
      · intro c first
        exact ⟨(afterExponent c first).1, (afterExponent c first).2.1⟩
    have afterWhole : ∀ c ∈ (fraction ++ (exponent ++ rest')).head?, c.isDigit = false := by
      apply forall_mem_head?_append
      · intro c first
        rw [pointed c first]
        rfl
      · exact fun c first => (afterFraction c first).1
    have signedAgain := signed d (more ++ (fraction ++ (exponent ++ rest'))) digit
    rw [← List.cons_append, ← head] at signedAgain
    rw [List.append_assoc, List.append_assoc, List.append_assoc]
    exact scan?_of_parts signedAgain (wholeAgain _ afterWhole) (fractionAgain _ afterFraction)
      (exponentAgain rest' fun c first => ⟨(afterExponent c first).1, (afterExponent c first).2.2⟩)

end Numeral

end Inlay.Json
