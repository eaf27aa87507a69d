import Inlay.Proofs.Json.Scalar

/-!
A string literal closes itself: the text up to its closing quote is read in the same way whatever
follows it. An escape by number looks ahead, but never past the quote of a literal that is closed.
-/

namespace Inlay.Json

theorem hexEscape?_spelled {text : Text} {found : Scanned CodePoint text}
    (read : hexEscape? text = some found) :
    ∃ spelled last tail, found.rest = last :: tail ∧ text = spelled ++ last :: tail ∧
      ∀ next rest, ∃ shorter,
        hexEscape? (spelled ++ next :: rest) = some ⟨found.value, next :: rest, shorter⟩ := by
  unfold hexEscape? at read
  split at read
  case h_2 => contradiction
  rename_i a b c d last tail
  split at read
  case h_2 => contradiction
  rename_i aValue bValue cValue dValue
  cases read
  refine ⟨[a, b, c, d], last, tail, rfl, rfl, ?_⟩
  intro next rest
  refine ⟨by simp, ?_⟩
  simp only [List.cons_append, List.nil_append, hexEscape?, aValue, bValue, cValue, dValue]

theorem hexEscape?_append {text : Text} {found : Scanned CodePoint text}
    (read : hexEscape? text = some found) (more : Text) :
    ∃ shorter, hexEscape? (text ++ more) = some ⟨found.value, found.rest ++ more, shorter⟩ := by
  obtain ⟨spelled, last, tail, restAt, rfl, anywhere⟩ := hexEscape?_spelled read
  obtain ⟨shorter, again⟩ := anywhere last (tail ++ more)
  rw [restAt, List.append_assoc, List.cons_append]
  exact ⟨shorter, again⟩

/-- The number of an escape stands for itself in front of a text: it is no high surrogate, or what
follows is no escaped low one. -/
def StandsAlone (number : CodePoint) (rest : Text) : Prop :=
  number.isHighSurrogate = true → ∀ tail, rest = .ofChar '\\' :: .ofChar 'u' :: tail →
    ∃ second, hexEscape? tail = some second ∧ second.value.isLowSurrogate = false

theorem named?_unicodeMark (rest : Text) :
    ∃ shorter, named? "\\u" () (.ofChar '\\' :: .ofChar 'u' :: rest) = some ⟨(), rest, shorter⟩ :=
  @named?_append Unit "\\u" (by decide) () rest

theorem unicodeEscape_of_alone {text : Text} {first : Scanned CodePoint text}
    (read : hexEscape? text = some first) (alone : StandsAlone first.value first.rest) :
    unicodeEscape text = .ok first := by
  simp only [unicodeEscape, read]
  split
  · next high =>
      split
      · rfl
      · next escape marked =>
          obtain ⟨second, readSecond, notLow⟩ := alone high escape.rest (named?_sound marked).1
          simp only [readSecond, notLow, Bool.false_eq_true, if_false]
  · rfl

theorem unicodeEscape_of_pair {text tail : Text} {first : Scanned CodePoint text}
    {second : Scanned CodePoint tail} (read : hexEscape? text = some first)
    (high : first.value.isHighSurrogate = true)
    (marked : first.rest = .ofChar '\\' :: .ofChar 'u' :: tail)
    (readSecond : hexEscape? tail = some second) (low : second.value.isLowSurrogate = true) :
    Gives unicodeEscape text (.ofSurrogates first.value second.value) second.rest := by
  obtain ⟨value, rest, shorter⟩ := first
  subst marked
  obtain ⟨_, mark⟩ := named?_unicodeMark tail
  apply Gives.of_map
  simp only [unicodeEscape, read, if_pos high, mark, readSecond, if_pos low]
  rfl

theorem unicodeEscape_cases {text : Text} {found : Scanned CodePoint text}
    (read : unicodeEscape text = .ok found) :
    ∃ first, hexEscape? text = some first ∧
      (StandsAlone first.value first.rest ∧ found = first ∨
        first.value.isHighSurrogate = true ∧ ∃ tail second,
          first.rest = .ofChar '\\' :: .ofChar 'u' :: tail ∧ hexEscape? tail = some second ∧
          second.value.isLowSurrogate = true ∧
          found.value = .ofSurrogates first.value second.value ∧ found.rest = second.rest) := by
  unfold unicodeEscape at read
  split at read
  · contradiction
  rename_i first readFirst
  refine ⟨first, readFirst, ?_⟩
  split at read
  case isFalse single =>
    cases read
    exact .inl ⟨fun high => absurd high single, rfl⟩
  rename_i high
  split at read
  · next unmarked =>
      cases read
      refine .inl ⟨fun _ tail shape => ?_, rfl⟩
      obtain ⟨_, marked⟩ := named?_unicodeMark tail
      rw [shape, marked] at unmarked
      contradiction
  rename_i escape marked
  split at read
  · contradiction
  rename_i second readSecond
  split at read
  · next low =>
      cases read
      exact .inr ⟨high, escape.rest, second, (named?_sound marked).1, readSecond, low, rfl, rfl⟩
  · next notLow =>
      cases read
      refine .inl ⟨fun _ tail shape => ?_, rfl⟩
      have cut := (named?_sound marked).1.symm.trans shape
      obtain rfl : escape.rest = tail := (List.cons.inj (List.cons.inj cut).2).2
      exact ⟨second, readSecond, Bool.not_eq_true _ ▸ notLow⟩

/-- A text spells the rest of a string literal, up to the closing quote, whatever follows it. -/
def Closes (found spelled : Text) : Prop :=
  ∀ opening rest, Gives (quoted opening) (spelled ++ rest) found rest

namespace Closes

variable {found spelled : Text}

theorem alone (closes : Closes found spelled) : Gives (quoted 0) spelled found [] := by
  have read := closes 0 []
  rwa [List.append_nil] at read

theorem ne_nil (closes : Closes found spelled) : spelled ≠ [] := by
  rintro rfl
  obtain ⟨_, read⟩ := closes.alone
  rw [quoted] at read
  contradiction

theorem exists_character {c : CodePoint} (closes : Closes found (c :: spelled))
    (notQuote : c ≠ '"') : ∃ first, character 0 (c :: spelled) = .ok first := by
  obtain ⟨_, read⟩ := closes.alone
  rw [quoted, if_neg notQuote] at read
  split at read
  · contradiction
  · next first readFirst => exact ⟨first, readFirst⟩

theorem exists_hexEscape (closes : Closes found (.ofChar '\\' :: .ofChar 'u' :: spelled)) :
    ∃ first, hexEscape? spelled = some first := by
  obtain ⟨_, read⟩ := closes.exists_character (by decide)
  simp only [character, if_true] at read
  obtain ⟨inner, readInner, _⟩ := map_eq_ok_iff.mp read
  unfold unicodeEscape at readInner
  split at readInner
  · contradiction
  · next first readFirst => exact ⟨first, readFirst⟩

theorem escape_cases (closes : Closes found spelled) :
    (∃ tail, spelled = .ofChar '\\' :: .ofChar 'u' :: tail) ∨
      ∀ rest tail, spelled ++ rest ≠ .ofChar '\\' :: .ofChar 'u' :: tail := by
  obtain ⟨c, spelled, rfl⟩ := List.exists_cons_of_ne_nil closes.ne_nil
  by_cases backslash : c = '\\'
  · subst backslash
    obtain ⟨_, read⟩ := closes.exists_character (by decide)
    cases spelled with
    | nil => contradiction
    | cons letter tail =>
        by_cases unicode : letter = 'u'
        · exact .inl ⟨tail, by rw [unicode]⟩
        · refine .inr fun rest other same => unicode ?_
          exact (List.cons.inj (List.cons.inj same).2).1
  · exact .inr fun rest tail same => backslash (List.cons.inj same).1

end Closes

theorem Closes.standsAlone {more spelled rest : Text} (closes : Closes more spelled)
    {number : CodePoint} (alone : StandsAlone number (spelled ++ rest)) (rest' : Text) :
    StandsAlone number (spelled ++ rest') := by
  intro high tail' shape
  cases closes.escape_cases with
  | inr plain => exact absurd shape (plain rest' tail')
  | inl escape =>
      obtain ⟨tail, rfl⟩ := escape
      obtain ⟨first, read⟩ := closes.exists_hexEscape
      obtain ⟨second, readSecond, notLow⟩ := alone high (tail ++ rest) rfl
      obtain ⟨_, again⟩ := hexEscape?_append read rest
      obtain ⟨_, again'⟩ := hexEscape?_append read rest'
      cases readSecond.symm.trans again
      obtain rfl : tail ++ rest' = tail' := (List.cons.inj (List.cons.inj shape).2).2
      exact ⟨_, again', notLow⟩

theorem unicodeEscape_spelled {text more spelled rest : Text} {found : Scanned CodePoint text}
    (read : unicodeEscape text = .ok found) (shape : found.rest = spelled ++ rest)
    (closes : Closes more spelled) :
    ∃ lead, text = lead ++ (spelled ++ rest) ∧ ∀ rest',
      Gives unicodeEscape (lead ++ (spelled ++ rest')) found.value (spelled ++ rest') := by
  obtain ⟨next, tail, rfl⟩ := List.exists_cons_of_ne_nil closes.ne_nil
  obtain ⟨first, readFirst, alone | pair⟩ := unicodeEscape_cases read
  · obtain ⟨alone, rfl⟩ := alone
    obtain ⟨lead, last, after, restAt, rfl, anywhere⟩ := hexEscape?_spelled readFirst
    refine ⟨lead, by rw [← restAt, shape], fun rest' => ?_⟩
    obtain ⟨shorter, again⟩ := anywhere next (tail ++ rest')
    rw [shape] at alone
    exact ⟨shorter, unicodeEscape_of_alone again (closes.standsAlone alone rest')⟩
  · obtain ⟨high, after, second, marked, readSecond, low, sameValue, sameRest⟩ := pair
    obtain ⟨lead, _, _, restAt, rfl, anywhere⟩ := hexEscape?_spelled readFirst
    obtain ⟨lead', _, _, restAt', rfl, anywhere'⟩ := hexEscape?_spelled readSecond
    refine ⟨lead ++ .ofChar '\\' :: .ofChar 'u' :: lead', ?_, fun rest' => ?_⟩
    · rw [← restAt, marked, ← shape, sameRest, restAt', List.append_assoc]
      rfl
    · obtain ⟨_, again'⟩ := anywhere' next (tail ++ rest')
      obtain ⟨_, again⟩ := anywhere '\\' (.ofChar 'u' :: (lead' ++ next :: (tail ++ rest')))
      have pair := unicodeEscape_of_pair again high rfl again' low
      rw [sameValue, List.append_assoc]
      exact pair

theorem character_spelled {opening : Nat} {c : CodePoint} {text more spelled rest : Text}
    {found : Scanned CodePoint (c :: text)} (read : character opening (c :: text) = .ok found)
    (shape : found.rest = spelled ++ rest) (closes : Closes more spelled) :
    ∃ lead, text = lead ++ (spelled ++ rest) ∧ ∀ opening' rest',
      Gives (character opening') (c :: (lead ++ (spelled ++ rest'))) found.value
        (spelled ++ rest') := by
  simp only [character] at read
  split at read
  · next backslash =>
      subst backslash
      split at read
      · contradiction
      rename_i letter tail
      split at read
      · next unicode =>
          subst unicode
          obtain ⟨inner, readInner, rfl⟩ := map_eq_ok_iff.mp read
          obtain ⟨lead, rfl, anywhere⟩ := unicodeEscape_spelled readInner shape closes
          refine ⟨.ofChar 'u' :: lead, rfl, fun opening' rest' => ?_⟩
          obtain ⟨_, again⟩ := anywhere rest'
          apply Gives.of_map
          simp only [List.cons_append, character, if_true, again]
          rfl
      · next notUnicode =>
          split at read
          · next simple =>
              cases read
              refine ⟨[letter], by rw [List.singleton_append, ← shape], fun opening' rest' => ?_⟩
              apply Gives.of_map
              simp only [List.singleton_append, character, if_true, if_neg notUnicode, simple]
              rfl
          · contradiction
  · next notBackslash =>
      split at read
      · contradiction
      · next visible =>
          cases read
          refine ⟨[], shape, fun opening' rest' => ?_⟩
          apply Gives.of_map
          simp only [List.nil_append, character, if_neg notBackslash, if_neg visible]
          rfl

theorem quoted_spelled {opening : Nat} {text : Text} {found : Scanned Text text}
    (read : quoted opening text = .ok found) :
    ∃ spelled, text = spelled ++ found.rest ∧ Closes found.value spelled := by
  induction counted : text.length using Nat.strongRecOn generalizing text with
  | ind length induction =>
      cases text with
      | nil =>
          simp only [quoted] at read
          contradiction
      | cons c text =>
          rw [quoted] at read
          split at read
          · next quote =>
              subst quote
              cases read
              refine ⟨['"'], rfl, fun opening' rest' => ?_⟩
              apply Gives.of_map
              rw [List.singleton_append, quoted, if_pos rfl]
              rfl
          · next notQuote =>
              split at read
              · contradiction
              rename_i first readFirst
              split at read
              · contradiction
              · next more readMore =>
                  cases read
                  obtain ⟨spelled, shape, closes⟩ :=
                    induction first.rest.length (counted ▸ first.shorter) readMore rfl
                  obtain ⟨lead, same, anywhere⟩ := character_spelled readFirst shape closes
                  refine ⟨c :: (lead ++ spelled), by simp [same], fun opening' rest' => ?_⟩
                  rw [List.cons_append, List.append_assoc]
                  exact quoted_cons notQuote (anywhere opening' rest') (closes opening' rest')

end Inlay.Json
