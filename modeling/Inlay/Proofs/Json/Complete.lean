import Inlay.Proofs.Json.Reads

/-!
The readers of values read all that the relation `Reads` allows, and nothing is read in two ways: the
reader for a phrase that stands in front of a text gives this phrase and the text behind it.
-/

namespace Inlay.Json

def Gives {α : Type} (read : (text : Text) → Except Fault (Scanned α text)) (text : Text)
    (found : α) (rest : Text) : Prop :=
  ∃ shorter, read text = .ok ⟨found, rest, shorter⟩

theorem Gives.of_map {α : Type} {read : (text : Text) → Except Fault (Scanned α text)} {text : Text}
    {found : α} {rest : Text}
    (same : (read text).map (fun scanned => (scanned.value, scanned.rest)) = .ok (found, rest)) :
    Gives read text found rest := by
  obtain ⟨⟨_, _, shorter⟩, succeeded, parts⟩ := map_eq_ok_iff.mp same
  cases parts
  exact ⟨shorter, succeeded⟩

def Phrase.GivenBy : Phrase → Text → Text → Prop
  | .value found, text, rest => Gives Json.value text found rest
  | .elements found, text, rest => Gives Json.elements text found rest
  | .members found, text, rest => Gives Json.members text found rest

theorem mark?_complete {c : CodePoint} {text rest : Text} (shape : skipBlanks text = c :: rest) :
    ∃ shorter, mark? text = some ⟨c, rest, shorter⟩ := by
  have bound := length_skipBlanks_le text
  rw [shape, List.length_cons] at bound
  refine ⟨by omega, ?_⟩
  unfold mark?
  split
  · next ended => cases shape.symm.trans ended
  · next found =>
      obtain ⟨rfl, rfl⟩ := List.cons.inj (found.symm.trans shape)
      rfl

theorem character_of_opening {opening : Nat} {text : Text} {found : Scanned CodePoint text}
    (read : character opening text = .ok found) (opening' : Nat) :
    character opening' text = .ok found := by
  cases text with
  | nil =>
      simp only [character] at read
      contradiction
  | cons c rest =>
      simp only [character] at read ⊢
      by_cases backslash : c = '\\'
      · cases rest with
        | nil =>
            rw [if_pos backslash] at read
            contradiction
        | cons e rest => exact read
      · rwa [if_neg backslash] at read ⊢

theorem quoted_of_opening {opening : Nat} {text : Text} {found : Scanned Text text}
    (read : quoted opening text = .ok found) (opening' : Nat) :
    quoted opening' text = .ok found := by
  induction counted : text.length using Nat.strongRecOn generalizing text with
  | ind length induction =>
      cases text with
      | nil =>
          simp only [quoted] at read
          contradiction
      | cons c rest =>
          rw [quoted] at read ⊢
          split at read
          · next quote => rwa [if_pos quote]
          · next notQuote =>
              rw [if_neg notQuote]
              split at read
              · contradiction
              · next first readFirst =>
                  rw [character_of_opening readFirst opening']
                  split at read
                  · contradiction
                  · next more readMore =>
                      have again := induction first.rest.length (counted ▸ first.shorter)
                        readMore rfl
                      simp only [again]
                      exact read

theorem quoted_cons {opening : Nat} {c found : CodePoint} {text middle more rest : Text}
    (notQuote : c ≠ '"') (first : Gives (character opening) (c :: text) found middle)
    (further : Gives (quoted opening) middle more rest) :
    Gives (quoted opening) (c :: text) (found :: more) rest := by
  obtain ⟨_, readFirst⟩ := first
  obtain ⟨_, readMore⟩ := further
  apply Gives.of_map
  rw [quoted, if_neg notQuote]
  simp only [readFirst, readMore]
  rfl

theorem ne_of_scalar {c d : CodePoint} {text : Text} {found : Scanned Value (c :: text)}
    {fault : Fault} (failed : scalar (d :: text) = .error fault)
    (read : scalar (c :: text) = .ok found) : c ≠ d := by
  intro same
  subst same
  cases failed.symm.trans read

theorem isBlank_of_scalar {c : CodePoint} {text : Text} {found : Scanned Value (c :: text)}
    (read : scalar (c :: text) = .ok found) : isBlank c = false := by
  have notSpace : c ≠ ' ' := ne_of_scalar rfl read
  have notTab : c ≠ '\t' := ne_of_scalar rfl read
  have notNewline : c ≠ '\n' := ne_of_scalar rfl read
  have notReturn : c ≠ '\r' := ne_of_scalar rfl read
  simp [isBlank, notSpace, notTab, notNewline, notReturn]

theorem Reads.of_scalar {text rest : Text} {found : Value}
    (read : Gives Json.scalar text found rest) : Reads (.value found) text rest := by
  obtain ⟨_, read⟩ := read
  cases text with
  | nil => contradiction
  | cons c text =>
      exact .scalar (ne_of_scalar rfl read) (ne_of_scalar rfl read) (ne_of_scalar rfl read) read

theorem Reads.value_head {found : Value} {text rest : Text}
    (reads : Reads (.value found) text rest) :
    ∃ c tail, text = c :: tail ∧ isBlank c = false ∧ c ≠ ']' := by
  cases reads with
  | string => exact ⟨_, _, rfl, rfl, by decide⟩
  | emptyObject => exact ⟨_, _, rfl, rfl, by decide⟩
  | object => exact ⟨_, _, rfl, rfl, by decide⟩
  | emptyArray => exact ⟨_, _, rfl, rfl, by decide⟩
  | array => exact ⟨_, _, rfl, rfl, by decide⟩
  | scalar _ _ _ read => exact ⟨_, _, rfl, isBlank_of_scalar read, ne_of_scalar rfl read⟩

theorem Reads.elements_head {found : List Value} {text rest : Text}
    (reads : Reads (.elements found) text rest) :
    ∃ c tail, text = c :: tail ∧ isBlank c = false ∧ c ≠ ']' := by
  cases reads with
  | lastElement readsFirst => exact readsFirst.value_head
  | element readsFirst => exact readsFirst.value_head

theorem Reads.members_head {found : List (Text × Value)} {text rest : Text}
    (reads : Reads (.members found) text rest) : ∃ tail, text = .ofChar '"' :: tail := by
  cases reads with
  | lastMember => exact ⟨_, rfl⟩
  | member => exact ⟨_, rfl⟩

theorem Reads.skipBlanks_eq {phrase : Phrase} {text rest : Text} (reads : Reads phrase text rest) :
    skipBlanks text = text := by
  have visible : ∃ c tail, text = c :: tail ∧ isBlank c = false := by
    cases phrase with
    | value =>
        obtain ⟨c, tail, shape, notBlank, _⟩ := reads.value_head
        exact ⟨c, tail, shape, notBlank⟩
    | elements =>
        obtain ⟨c, tail, shape, notBlank, _⟩ := reads.elements_head
        exact ⟨c, tail, shape, notBlank⟩
    | members =>
        obtain ⟨tail, shape⟩ := reads.members_head
        exact ⟨_, tail, shape, rfl⟩
  obtain ⟨c, tail, rfl, notBlank⟩ := visible
  exact List.dropWhile_cons_of_neg (by simp [notBlank])

theorem skipBlanks_append {blanks : Text} (blank : ∀ c ∈ blanks, isBlank c = true) (text : Text) :
    skipBlanks (blanks ++ text) = skipBlanks text :=
  List.dropWhile_append_of_pos blank

theorem Reads.after_blanks {phrase : Phrase} {blanks text rest : Text}
    (blank : ∀ c ∈ blanks, isBlank c = true) (reads : Reads phrase text rest) :
    Reads phrase (skipBlanks (blanks ++ text)) rest := by
  rw [skipBlanks_append blank, reads.skipBlanks_eq]
  exact reads

theorem Reads.given {phrase : Phrase} {text rest : Text} (reads : Reads phrase text rest) :
    phrase.GivenBy text rest := by
  induction reads with
  | @string _ text _ read =>
      have again := quoted_of_opening read (text.length + 1)
      apply Gives.of_map
      simp only [value, if_true, again]
      rfl
  | emptyObject shape =>
      obtain ⟨_, marked⟩ := mark?_complete shape
      apply Gives.of_map
      simp only [value, marked]
      rfl
  | object readsMembers induction =>
      obtain ⟨tail, shape⟩ := readsMembers.members_head
      obtain ⟨_, marked⟩ := mark?_complete shape
      obtain ⟨_, read⟩ := induction
      apply Gives.of_map
      simp only [value, marked, read]
      rfl
  | emptyArray shape =>
      obtain ⟨_, marked⟩ := mark?_complete shape
      apply Gives.of_map
      simp only [value, marked]
      rfl
  | array readsElements induction =>
      obtain ⟨c, tail, shape, _, notClosing⟩ := readsElements.elements_head
      obtain ⟨_, marked⟩ := mark?_complete shape
      obtain ⟨_, read⟩ := induction
      apply Gives.of_map
      simp only [value, marked, if_neg notClosing, read]
      rfl
  | scalar notQuote notBrace notBracket read =>
      apply Gives.of_map
      simp only [value, if_neg notQuote, if_neg notBrace, if_neg notBracket, read]
      rfl
  | lastElement _ shape induction =>
      obtain ⟨_, marked⟩ := mark?_complete shape
      obtain ⟨_, read⟩ := induction
      apply Gives.of_map
      rw [elements]
      simp only [read, marked]
      rfl
  | element _ shape _ inductionFirst inductionMore =>
      obtain ⟨_, marked⟩ := mark?_complete shape
      obtain ⟨_, readFirst⟩ := inductionFirst
      obtain ⟨_, readMore⟩ := inductionMore
      apply Gives.of_map
      rw [elements]
      simp only [readFirst, marked, readMore]
      rfl
  | @lastMember _ _ text _ _ _ _ readName colon _ shape induction =>
      have again := quoted_of_opening readName (text.length + 1)
      obtain ⟨_, markedColon⟩ := mark?_complete colon
      obtain ⟨_, marked⟩ := mark?_complete shape
      obtain ⟨_, read⟩ := induction
      apply Gives.of_map
      simp only [members, again, markedColon, read, marked]
      rfl
  | @member _ _ _ text _ _ _ _ _ readName colon _ shape _ inductionFirst inductionMore =>
      have again := quoted_of_opening readName (text.length + 1)
      obtain ⟨_, markedColon⟩ := mark?_complete colon
      obtain ⟨_, marked⟩ := mark?_complete shape
      obtain ⟨_, readFirst⟩ := inductionFirst
      obtain ⟨_, readMore⟩ := inductionMore
      apply Gives.of_map
      simp only [members, again, markedColon, readFirst, marked, readMore]
      rfl

theorem Reads.unmarked {found : Value} {text rest : Text}
    (reads : Reads (.value found) (skipBlanks text) rest) :
    text.head?.map CodePoint.val ≠ some 0xFEFF := by
  cases text with
  | nil => nofun
  | cons c tail =>
      intro marked
      have same : c = ⟨0xFEFF, by decide⟩ := CodePoint.ext (Option.some.inj marked)
      have shape : skipBlanks (c :: tail) = c :: tail := by
        rw [same]
        exact List.dropWhile_cons_of_neg (by decide)
      rw [shape] at reads
      cases reads with
      | string => exact absurd same (by decide)
      | emptyObject => exact absurd same (by decide)
      | object => exact absurd same (by decide)
      | emptyArray => exact absurd same (by decide)
      | array => exact absurd same (by decide)
      | scalar _ _ _ read => exact ne_of_scalar rfl read same

theorem parse_of_reads {found : Value} {text rest : Text}
    (reads : Reads (.value found) (skipBlanks text) rest) (ended : skipBlanks rest = []) :
    parse text = .ok found := by
  obtain ⟨_, read⟩ := reads.given
  rw [parse, if_neg reads.unmarked]
  simp only [read, ended, if_true]

end Inlay.Json
