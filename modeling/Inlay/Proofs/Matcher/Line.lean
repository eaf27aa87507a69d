import Inlay.Matcher.Basic

namespace Inlay

@[simp] theorem CodePoint.isBlank_newline : CodePoint.isBlank .newline = false := rfl

namespace Text

theorem firstLine_append_rest (text : Text) :
    text = text.firstLine ++ text.dropWhile (· ≠ .newline) :=
  List.takeWhile_append_dropWhile.symm

theorem newline_notMem_firstLine (text : Text) : .newline ∉ text.firstLine := by
  intro member
  have passed := List.all_eq_true.mp List.all_takeWhile _ member
  simp at passed

theorem firstLine_append_newline (text rest : Text) :
    (text ++ .newline :: rest).firstLine = text.firstLine := by
  induction text with
  | nil => simp [firstLine]
  | cons c text induction =>
      simp only [firstLine, List.cons_append, List.takeWhile_cons] at induction ⊢
      rw [induction]

theorem firstLine_dropWhile (text : Text) :
    (firstLine (text.dropWhile (· ≠ .newline))) = [] := by
  induction text with
  | nil => rfl
  | cons c text induction =>
      by_cases ends : c = .newline
      · simp [firstLine, ends]
      · simpa [firstLine, ends] using induction

theorem head?_of_firstLine_eq_nil {text : Text} (ended : text.firstLine = []) :
    text = [] ∨ text.head? = some .newline := by
  cases text with
  | nil => exact .inl rfl
  | cons c rest =>
      refine .inr ?_
      simpa [firstLine, List.takeWhile_cons] using ended

end Text

namespace DirectiveLine

/-- The parts that a matcher asks for, told apart in one of the possible ways. -/
structure Fits (matcher : Matcher) (line : DirectiveLine) : Prop where
  padding_blank : ∀ c ∈ line.padding, c.isBlank = true
  comment_parts : ∃ gap : Text, gap ≠ [] ∧ (∀ c ∈ gap, c.isBlank = true) ∧
    line.comment = matcher.marker ++ gap ++ matcher.tag ++ ":" ++ line.body
  body_nonempty : line.body ≠ []
  body_oneLine : .newline ∉ line.body

variable {matcher : Matcher} {line : DirectiveLine}

theorem Fits.exists_text_eq (fits : line.Fits matcher) :
    ∃ lead : Text, line.text = lead ++ line.body := by
  obtain ⟨gap, _, _, parts⟩ := fits.comment_parts
  exact ⟨line.padding ++ (matcher.marker ++ gap ++ matcher.tag ++ ":"), by
    rw [DirectiveLine.text, parts, List.append_assoc line.padding]⟩

theorem Fits.text_length_pos (fits : line.Fits matcher) : 0 < line.text.length := by
  obtain ⟨lead, same⟩ := fits.exists_text_eq
  have nonempty := List.length_pos_iff.mpr fits.body_nonempty
  rw [same, List.length_append]
  omega

theorem Fits.getLast?_text_ne_newline (fits : line.Fits matcher) :
    line.text.getLast? ≠ some .newline := by
  obtain ⟨lead, same⟩ := fits.exists_text_eq
  intro last
  rw [same, List.getLast?_append, List.getLast?_eq_some_getLast fits.body_nonempty,
    Option.some_or] at last
  apply fits.body_oneLine
  rw [← Option.some.inj last]
  exact List.getLast_mem fits.body_nonempty

end DirectiveLine

namespace Matcher

theorem afterGap?_sound {α : Type} {read? : Text → Option α} {text gap : Text} {found : α}
    (read : afterGap? read? text = some (gap, found)) :
    ∃ rest, text = gap ++ rest ∧ read? rest = some found ∧ gap ≠ [] ∧
      ∀ c ∈ gap, c.isBlank = true := by
  cases text with
  | nil => contradiction
  | cons c tail =>
      simp only [afterGap?] at read
      split at read
      · next blank =>
          simp only [Option.map_eq_some_iff, Prod.mk.injEq] at read
          obtain ⟨⟨blanks, inner⟩, further, rfl, rfl⟩ := read
          obtain ⟨rest, rfl, here, allBlank⟩ := afterBlanks?_sound further
          refine ⟨rest, rfl, here, List.cons_ne_nil _ _, ?_⟩
          simpa [blank] using allBlank
      · contradiction

theorem comment?_sound {matcher : Matcher} {text comment body : Text}
    (read : matcher.comment? text = some (comment, body)) :
    (∃ gap : Text, gap ≠ [] ∧ (∀ c ∈ gap, c.isBlank = true) ∧
      comment = matcher.marker ++ gap ++ matcher.tag ++ ":" ++ body) ∧
    body ≠ [] ∧ .newline ∉ body ∧
    ∃ rest : Text, text = comment ++ rest ∧ rest.firstLine = [] := by
  simp only [comment?] at read
  split at read
  · contradiction
  · next afterMarker marked =>
      simp only [Option.map_eq_some_iff, Prod.mk.injEq] at read
      obtain ⟨⟨gap, inner⟩, gapRead, rfl, rfl⟩ := read
      obtain ⟨tagged, rfl, bodyRead, gapNonempty, gapBlank⟩ := afterGap?_sound gapRead
      obtain ⟨bodyNonempty, rest, rfl, rfl⟩ := body?_sound bodyRead
      refine ⟨⟨gap, gapNonempty, gapBlank, rfl⟩, bodyNonempty,
        rest.newline_notMem_firstLine, _, ?_, rest.firstLine_dropWhile⟩
      rw [Text.after?_eq_some_iff.mp marked]
      simp only [List.append_assoc]
      rw [← rest.firstLine_append_rest]

/-- A directive line fits its matcher, stands at the front of the text, and ends a line there. -/
theorem line?_sound {matcher : Matcher} {text : Text} {line : DirectiveLine}
    (read : matcher.line? text = some line) :
    line.Fits matcher ∧ ∃ rest : Text, text = line.text ++ rest ∧ rest.firstLine = [] := by
  simp only [line?, Option.map_eq_some_iff] at read
  obtain ⟨⟨padding, comment, body⟩, blanksRead, rfl⟩ := read
  obtain ⟨commented, rfl, commentRead, paddingBlank⟩ := afterBlanks?_sound blanksRead
  obtain ⟨parts, bodyNonempty, bodyOneLine, rest, rfl, ended⟩ := comment?_sound commentRead
  refine ⟨⟨paddingBlank, parts, bodyNonempty, bodyOneLine⟩, rest, ?_, ended⟩
  simp only [DirectiveLine.text, List.append_assoc]

theorem length_text_le_of_line? {matcher : Matcher} {text : Text} {line : DirectiveLine}
    (read : matcher.line? text = some line) : line.text.length ≤ text.length := by
  obtain ⟨_, rest, same, _⟩ := line?_sound read
  rw [same, List.length_append]
  omega

@[simp] theorem line?_nil (matcher : Matcher) : matcher.line? [] = none := by
  cases read : matcher.line? [] with
  | none => rfl
  | some line =>
      have bound := length_text_le_of_line? read
      have positive := (line?_sound read).1.text_length_pos
      simp only [List.length_nil] at bound
      omega

structure OneLine (matcher : Matcher) : Prop where
  marker : .newline ∉ matcher.marker
  tag : .newline ∉ matcher.tag

end Matcher

theorem Text.after?_append_newline {lead : Text} (oneLine : .newline ∉ lead) (text rest : Text) :
    Text.after? lead (text ++ .newline :: rest) =
      (Text.after? lead text).map (· ++ .newline :: rest) := by
  induction lead generalizing text with
  | nil => simp [Text.after?]
  | cons a lead induction =>
      simp only [List.mem_cons, not_or] at oneLine
      cases text with
      | nil => simp [Text.after?, Ne.symm oneLine.1]
      | cons c text =>
          simp only [List.cons_append, Text.after?]
          split
          · exact induction oneLine.2 text
          · rfl

namespace Matcher

section Readers

variable {α : Type} {read? : Text → Option α}

theorem afterBlanks?_append_newline {rest : Text}
    (unaffected : ∀ text, read? (text ++ .newline :: rest) = read? text) (text : Text) :
    afterBlanks? read? (text ++ .newline :: rest) = afterBlanks? read? text := by
  induction text with
  | nil =>
      have here := unaffected []
      simp only [List.nil_append] at here
      simp [afterBlanks?, here]
  | cons c text induction =>
      have here := unaffected (c :: text)
      simp only [List.cons_append] at here
      simp only [List.cons_append, afterBlanks?, induction, here]

theorem afterGap?_append_newline {rest : Text}
    (unaffected : ∀ text, read? (text ++ .newline :: rest) = read? text) (text : Text) :
    afterGap? read? (text ++ .newline :: rest) = afterGap? read? text := by
  cases text with
  | nil => simp [afterGap?]
  | cons c text =>
      simp only [List.cons_append, afterGap?, afterBlanks?_append_newline unaffected]

end Readers

variable {matcher : Matcher}

theorem body?_append_newline (oneLine : matcher.OneLine) (text rest : Text) :
    matcher.body? (text ++ .newline :: rest) = matcher.body? text := by
  have tagged : .newline ∉ matcher.tag ++ Text.ofString ":" := by
    simp only [List.mem_append, not_or]
    exact ⟨oneLine.tag, by decide⟩
  simp only [body?, Text.after?_append_newline tagged]
  cases Text.after? (matcher.tag ++ Text.ofString ":") text with
  | none => rfl
  | some body => simp only [Option.map_some, Text.firstLine_append_newline]

theorem comment?_append_newline (oneLine : matcher.OneLine) (text rest : Text) :
    matcher.comment? (text ++ .newline :: rest) = matcher.comment? text := by
  simp only [comment?, Text.after?_append_newline oneLine.marker]
  cases Text.after? matcher.marker text with
  | none => rfl
  | some commented =>
      simp only [Option.map_some]
      rw [afterGap?_append_newline fun tagged => body?_append_newline oneLine tagged rest]

/-- Only the first line of a text decides whether a directive line stands at its front. -/
theorem line?_append_newline (oneLine : matcher.OneLine) (text rest : Text) :
    matcher.line? (text ++ .newline :: rest) = matcher.line? text := by
  simp only [line?]
  rw [afterBlanks?_append_newline fun commented => comment?_append_newline oneLine commented rest]

end Matcher

end Inlay
