import Inlay.Proofs.Directive.Parenthesis
import Inlay.Proofs.Json.Reads

/-!
The scan for the closing parenthesis and the JSON reader agree on where string literals begin and
end, and JSON has no parentheses outside of them. So the scan passes whatever the reader reads.
-/

namespace Inlay.Json

open Parenthesis

theorem passes_inside {c : CodePoint} (notBackslash : c ≠ '\\') (notQuote : c ≠ '"') (text : Text) :
    Passes .inside (c :: text) .inside text := by
  apply Passes.step (by simp)
  simp only [Quoting.next, notBackslash, notQuote, if_false]
  exact .refl

theorem passes_escape (c : CodePoint) (text : Text) :
    Passes .inside ('\\' :: c :: text) .inside text := by
  apply Passes.step (by simp)
  apply Passes.step (by simp [Quoting.next])
  exact .refl

theorem passes_hexDigit {c : CodePoint} {digit : Fin 16} (value : c.hexValue? = some digit)
    (text : Text) : Passes .inside (c :: text) .inside text := by
  apply passes_inside
  · rintro rfl
    contradiction
  · rintro rfl
    contradiction

theorem passes_hexEscape {text : Text} {found : Scanned CodePoint text}
    (read : hexEscape? text = some found) : Passes .inside text .inside found.rest := by
  unfold hexEscape? at read
  split at read
  case h_2 => contradiction
  rename_i a b c d next rest
  split at read
  case h_2 => contradiction
  rename_i aValue bValue cValue dValue
  cases read
  exact (passes_hexDigit aValue _).trans ((passes_hexDigit bValue _).trans
    ((passes_hexDigit cValue _).trans (passes_hexDigit dValue _)))

theorem named?_sound {α : Type} {name text : Text} {value : α} {found : Scanned α text}
    (read : named? name value text = some found) :
    text = name ++ found.rest ∧ found.value = value := by
  unfold named? at read
  split at read
  · contradiction
  · next rest shape =>
      split at read
      · cases read
        exact ⟨Text.after?_eq_some_iff.mp shape, rfl⟩
      · contradiction

theorem passes_unicodeEscape {text : Text} {found : Scanned CodePoint text}
    (read : unicodeEscape text = .ok found) : Passes .inside text .inside found.rest := by
  unfold unicodeEscape at read
  split at read
  · contradiction
  rename_i first readFirst
  have passesFirst := passes_hexEscape readFirst
  split at read
  case isFalse =>
    cases read
    exact passesFirst
  split at read
  · cases read
    exact passesFirst
  rename_i escape marked
  split at read
  · contradiction
  rename_i second readSecond
  split at read
  · cases read
    have passesMark : Passes .inside first.rest .inside escape.rest :=
      (congrArg (Passes .inside · .inside escape.rest) (named?_sound marked).1).mpr
        (passes_escape 'u' escape.rest)
    exact passesFirst.trans (passesMark.trans (passes_hexEscape readSecond))
  · cases read
    exact passesFirst

theorem passes_character {opening : Nat} {c : CodePoint} {text : Text}
    {found : Scanned CodePoint (c :: text)} (notQuote : c ≠ '"')
    (read : character opening (c :: text) = .ok found) :
    Passes .inside (c :: text) .inside found.rest := by
  simp only [character] at read
  split at read
  · next backslash =>
      subst backslash
      split at read
      · contradiction
      · next e rest =>
          split at read
          · obtain ⟨inner, readInner, rfl⟩ := map_eq_ok_iff.mp read
            exact (passes_escape e rest).trans (passes_unicodeEscape readInner)
          · split at read
            · cases read
              exact passes_escape e rest
            · contradiction
  · next notBackslash =>
      split at read
      · contradiction
      · cases read
        exact passes_inside notBackslash notQuote text

theorem passes_quoted {opening : Nat} {text : Text} {found : Scanned Text text}
    (read : quoted opening text = .ok found) : Passes .inside text .outside found.rest := by
  induction counted : text.length using Nat.strongRecOn generalizing text with
  | ind length induction =>
      cases text with
      | nil =>
          simp only [quoted] at read
          contradiction
      | cons c rest =>
          rw [quoted] at read
          split at read
          · next quote =>
              subst quote
              cases read
              exact .step (by simp) .refl
          · next notQuote =>
              split at read
              · contradiction
              rename_i first readFirst
              split at read
              · contradiction
              · next more readMore =>
                  cases read
                  have passesMore := induction first.rest.length (counted ▸ first.shorter)
                    readMore rfl
                  exact (passes_character notQuote readFirst).trans passesMore

theorem plain_of_isBlank {c : CodePoint} (blank : isBlank c = true) : Plain c := by
  constructor
  · rintro rfl
    contradiction
  · simp only [isBlank, Bool.or_eq_true, decide_eq_true_eq] at blank
    rcases blank with ((rfl | rfl) | rfl) | rfl <;> rfl

theorem plain_of_isDigit {c : CodePoint} (digit : c.isDigit = true) : Plain c := by
  constructor
  · rintro rfl
    contradiction
  · have notOpening : c ≠ '(' := by
      rintro rfl
      contradiction
    have notClosing : c ≠ ')' := by
      rintro rfl
      contradiction
    simp only [weight, notOpening, notClosing, if_false]

theorem passes_skipBlanks (text : Text) : Passes .outside text .outside (skipBlanks text) :=
  Passes.dropWhile (fun _ => plain_of_isBlank) text

theorem passes_mark {c : CodePoint} (plain : Plain c) {text rest : Text}
    (shape : skipBlanks text = c :: rest) : Passes .outside text .outside rest := by
  have passesBlanks := passes_skipBlanks text
  rw [shape] at passesBlanks
  exact passesBlanks.trans (plain.passes rest)

namespace Numeral

theorem passes_digits (text : Text) : Passes .outside text .outside (digits text).2 :=
  Passes.dropWhile (fun _ => plain_of_isDigit) text

theorem passes_sign (text : Text) : Passes .outside text .outside (sign text).2 := by
  unfold sign
  split
  · exact .refl
  · next c rest =>
      split
      · next minus =>
          subst minus
          exact Plain.passes ⟨by decide, rfl⟩ rest
      · exact .refl

theorem passes_whole {text spelled rest : Text} (found : whole? text = some (spelled, rest)) :
    Passes .outside text .outside rest := by
  unfold whole? at found
  split at found
  · contradiction
  · next c tail =>
      split at found
      · next zero =>
          subst zero
          cases found
          exact Plain.passes ⟨by decide, rfl⟩ rest
      · split at found
        · cases found
          exact passes_digits (c :: tail)
        · contradiction

theorem passes_fractionPart (text : Text) :
    Passes .outside text .outside (fractionPart text).2 := by
  unfold fractionPart
  split
  · exact .refl
  · next c rest =>
      split
      · next point =>
          obtain ⟨rfl, _⟩ := point
          exact (Plain.passes ⟨by decide, rfl⟩ rest).trans (passes_digits rest)
      · exact .refl

theorem passes_exponentSign (text : Text) :
    Passes .outside text .outside (exponentSign text).2 := by
  unfold exponentSign
  split
  · exact .refl
  · next c rest =>
      split
      · next minus =>
          subst minus
          exact Plain.passes ⟨by decide, rfl⟩ rest
      · split
        · next plus =>
            subst plus
            exact Plain.passes ⟨by decide, rfl⟩ rest
        · exact .refl

theorem passes_exponentDigits {text rest : Text} {exponent : Int}
    (found : exponentDigits? text = some (exponent, rest)) : Passes .outside text .outside rest := by
  simp only [exponentDigits?] at found
  split at found
  · contradiction
  · cases found
    exact (passes_exponentSign text).trans (passes_digits _)

theorem passes_exponentPart (text : Text) :
    Passes .outside text .outside (exponentPart text).2 := by
  unfold exponentPart
  split
  · exact .refl
  · next c rest =>
      split
      · next letter =>
          have plain : Plain c := by rcases letter with rfl | rfl <;> exact ⟨by decide, rfl⟩
          split
          · next found => exact (plain.passes rest).trans (passes_exponentDigits found)
          · exact .refl
      · exact .refl

theorem passes_scan {text : Text} {found : Scanned Numeral text} (read : scan? text = some found) :
    Passes .outside text .outside found.rest := by
  unfold scan? at read
  split at read
  · contradiction
  · next whole afterWhole readWhole =>
      cases read
      exact (passes_sign text).trans ((passes_whole readWhole).trans
        ((passes_fractionPart afterWhole).trans (passes_exponentPart _)))

end Numeral

theorem plain_names : ∀ entry ∈ names, ∀ c ∈ entry.1, Plain c := by
  decide

theorem passes_scalar {text : Text} {found : Scanned Value text} (read : scalar text = .ok found) :
    Passes .outside text .outside found.rest := by
  simp only [scalar] at read
  split at read
  · next named search =>
      obtain ⟨entry, known, namedEntry⟩ := List.exists_of_findSome?_eq_some search
      have passesName : Passes .outside text .outside named.rest :=
        (congrArg (Passes .outside · .outside named.rest) (named?_sound namedEntry).1).mpr
          (.of_plain (plain_names entry known) named.rest)
      obtain ⟨value, _, rfl⟩ := map_eq_ok_iff.mp read
      exact passesName
  · split at read
    · next numeral scanned =>
        obtain ⟨value, _, rfl⟩ := map_eq_ok_iff.mp read
        exact Numeral.passes_scan scanned
    · contradiction

theorem passes_string {opening : Nat} {text : Text} {found : Scanned Text text}
    (read : quoted opening text = .ok found) : Passes .outside ('"' :: text) .outside found.rest :=
  .step (fun _ => rfl) (passes_quoted read)

theorem passes_name {opening : Nat} {text afterColon : Text} {name : Scanned Text text}
    (read : quoted opening text = .ok name)
    (colon : skipBlanks name.rest = .ofChar ':' :: afterColon) :
    Passes .outside ('"' :: text) .outside (skipBlanks afterColon) := by
  apply (passes_string read).trans
  apply (passes_mark (by decide) colon).trans
  exact passes_skipBlanks afterColon

/-- What a reader reads has whole literals only, and no parenthesis outside of them. -/
theorem Reads.passes {phrase : Phrase} {text rest : Text} (reads : Reads phrase text rest) :
    Passes .outside text .outside rest := by
  induction reads with
  | string read => exact passes_string read
  | @emptyObject text rest shape =>
      apply (Plain.passes (by decide) text).trans
      exact passes_mark (by decide) shape
  | @object _ text rest _ passesMembers =>
      apply (Plain.passes (by decide) text).trans
      exact (passes_skipBlanks text).trans passesMembers
  | @emptyArray text rest shape =>
      apply (Plain.passes (by decide) text).trans
      exact passes_mark (by decide) shape
  | @array _ text rest _ passesElements =>
      apply (Plain.passes (by decide) text).trans
      exact (passes_skipBlanks text).trans passesElements
  | scalar _ _ _ read => exact passes_scalar read
  | lastElement _ shape passesValue =>
      apply passesValue.trans
      exact passes_mark (by decide) shape
  | @element _ _ _ _ afterComma _ _ shape _ passesValue passesElements =>
      apply passesValue.trans
      apply (passes_mark (by decide) shape).trans
      exact (passes_skipBlanks afterComma).trans passesElements
  | lastMember readName colon _ shape passesValue =>
      apply (passes_name readName colon).trans
      apply passesValue.trans
      exact passes_mark (by decide) shape
  | @member _ _ _ _ _ _ afterComma _ _ readName colon _ shape _ passesValue passesMembers =>
      apply (passes_name readName colon).trans
      apply passesValue.trans
      apply (passes_mark (by decide) shape).trans
      exact (passes_skipBlanks afterComma).trans passesMembers

theorem passes_of_parse {text : Text} {value : Value} (succeeded : parse text = .ok value) :
    Passes .outside text .outside [] := by
  obtain ⟨rest, reads, ended⟩ := reads_of_parse succeeded
  have passesBlanks := passes_skipBlanks rest
  rw [ended] at passesBlanks
  exact (passes_skipBlanks text).trans (reads.passes.trans passesBlanks)

end Inlay.Json
