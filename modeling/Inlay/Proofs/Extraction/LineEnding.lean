import Inlay.Proofs.Extraction.Correspondence
import Inlay.Proofs.Matcher.Checked

/-!
Lines that end with a carriage return before the newline. A body ends with the return then, and is
read as before, since white space at its end is trimmed. But on a line where the body of a directive
is missing, the return becomes the body, and it is no command.
-/

namespace Inlay

abbrev CodePoint.carriageReturn : CodePoint := '\r'

namespace Text

def crlf (text : Text) : Text :=
  text.flatMap fun c => if c = .newline then [.carriageReturn, .newline] else [c]

/-- Where an offset comes to lie. The end of a line comes to lie behind its return. -/
def returned (text : Text) (offset : Int) : Int :=
  offset + (text.take (offset.toNat + 1)).count .newline

theorem crlf_append (text rest : Text) : (text ++ rest).crlf = text.crlf ++ rest.crlf :=
  List.flatMap_append

theorem crlf_cons_newline (rest : Text) :
    crlf (.newline :: rest) = .carriageReturn :: .newline :: rest.crlf := rfl

theorem crlf_cons {c : CodePoint} (different : c ≠ .newline) (rest : Text) :
    crlf (c :: rest) = c :: rest.crlf := by
  rw [crlf, List.flatMap_cons, if_neg different]
  rfl

theorem crlf_of_oneLine {line : Text} (oneLine : .newline ∉ line) : line.crlf = line := by
  induction line with
  | nil => rfl
  | cons c line induction =>
      simp only [List.mem_cons, not_or] at oneLine
      rw [crlf_cons (Ne.symm oneLine.1), induction oneLine.2]

theorem crlf_line {line : Text} (oneLine : .newline ∉ line) (rest : Text) :
    (line ++ .newline :: rest).crlf = (line ++ [.carriageReturn]) ++ .newline :: rest.crlf := by
  rw [crlf_append, crlf_of_oneLine oneLine, crlf_cons_newline, List.append_assoc]
  rfl

theorem count_crlf (text : Text) : text.crlf.count .newline = text.count .newline := by
  induction text with
  | nil => rfl
  | cons c text induction =>
      by_cases newline : c = .newline
      · rw [newline, crlf_cons_newline, List.count_cons_of_ne (by decide), List.count_cons_self,
          List.count_cons_self, induction]
      · rw [crlf_cons newline, List.count_cons_of_ne newline, List.count_cons_of_ne newline,
          induction]

theorem length_crlf (text : Text) : text.crlf.length = text.length + text.count .newline := by
  induction text with
  | nil => rfl
  | cons c text induction =>
      by_cases newline : c = .newline
      · rw [newline, crlf_cons_newline, List.count_cons_self]
        simp only [List.length_cons, induction]
        omega
      · rw [crlf_cons newline, List.count_cons_of_ne newline]
        simp only [List.length_cons, induction]
        omega

theorem ended_crlf {text : Text} (ended : text = [] ∨ text.getLast? = some .newline) :
    text.crlf = [] ∨ text.crlf.getLast? = some .newline := by
  cases ended with
  | inl empty =>
      subst empty
      exact .inl rfl
  | inr newline =>
      obtain ⟨front, rfl⟩ := List.getLast?_eq_some_iff.mp newline
      rw [crlf_append]
      exact .inr (List.getLast?_append_of_ne_nil _ (List.cons_ne_nil _ _))

theorem returned_behind (lead text : Text) {offset : Int} (nonnegative : 0 ≤ offset) :
    (lead ++ text).returned (offset + lead.length) =
      text.returned offset + lead.crlf.length := by
  have reached : (offset + lead.length).toNat + 1 = lead.length + (offset.toNat + 1) := by omega
  rw [returned, returned, reached, List.take_length_add_append, List.count_append, length_crlf]
  omega

theorem returned_of_oneLine {line : Text} (oneLine : .newline ∉ line) (offset : Int) :
    line.returned offset = offset := by
  have uncounted : (line.take (offset.toNat + 1)).count .newline = 0 :=
    List.count_eq_zero.mpr fun member => oneLine (List.mem_of_mem_take member)
  rw [returned, uncounted]
  exact Int.add_zero offset

theorem returned_zero {text : Text} (visible : text.head? ≠ some .newline) :
    text.returned 0 = 0 := by
  cases text with
  | nil => rfl
  | cons c text =>
      have different : c ≠ .newline := fun newline => visible (congrArg some newline)
      simp [returned, different]

theorem returned_lineEnd {line : Text} (oneLine : .newline ∉ line) (rest : Text) :
    (line ++ .newline :: rest).returned line.length = line.length + 1 := by
  have reached := returned_behind line (.newline :: rest) (Int.le_refl 0)
  rw [Int.zero_add, crlf_of_oneLine oneLine] at reached
  rw [reached]
  exact Int.add_comm ..

/-- A line that is ended by a newline, with what stands around it. -/
structure EndedLine (text before line after : Text) : Prop where
  parts : text = before ++ (line ++ .newline :: after)
  start : before = [] ∨ before.getLast? = some .newline
  oneLine : .newline ∉ line

theorem EndedLine.below {text before line after : Text} (ended : text.EndedLine before line after)
    (first : Text) :
    EndedLine (first ++ .newline :: text) (first ++ .newline :: before) line after where
  parts := by rw [ended.parts, List.append_assoc, List.cons_append]
  start := by
    refine .inr ?_
    cases ended.start with
    | inl empty => rw [empty, List.getLast?_concat]
    | inr newline => rw [List.append_cons, List.getLast?_append, newline, Option.some_or]
  oneLine := ended.oneLine

@[elab_as_elim]
theorem line_induction {motive : Text → Prop}
    (last : ∀ line : Text, .newline ∉ line → motive line)
    (more : ∀ line rest : Text, .newline ∉ line → motive rest → motive (line ++ .newline :: rest))
    (text : Text) : motive text := by
  induction measured : text.length using Nat.strongRecOn generalizing text with
  | ind length induction =>
      by_cases newline : .newline ∈ text
      · obtain ⟨line, rest, rfl, oneLine⟩ := List.eq_append_cons_of_mem newline
        have shorter : rest.length < length := by
          simp only [← measured, List.length_append, List.length_cons]
          omega
        exact more line rest oneLine (induction rest.length shorter rest rfl)
      · exact last text newline

end Text

theorem Command.parse_append_return (body : Text) :
    parse (body ++ [.carriageReturn]) = parse body := by
  have trimmed : Text.trimEnd (body ++ [.carriageReturn]) = body.trimEnd := by
    rw [Text.trimEnd, List.reverse_append]
    rfl
  simp only [parse, trimmed]

namespace DirectiveLine

def returned (line : DirectiveLine) : DirectiveLine :=
  ⟨line.padding, line.comment ++ [.carriageReturn], line.body ++ [.carriageReturn]⟩

theorem text_returned (line : DirectiveLine) :
    line.returned.text = line.text ++ [.carriageReturn] :=
  (List.append_assoc ..).symm

theorem Fits.returned {matcher : Matcher} {line : DirectiveLine} (fits : line.Fits matcher) :
    line.returned.Fits matcher where
  padding_blank := fits.padding_blank
  comment_parts := by
    obtain ⟨gap, nonempty, blank, parts⟩ := fits.comment_parts
    refine ⟨gap, nonempty, blank, ?_⟩
    simp only [DirectiveLine.returned, parts, List.append_assoc]
  body_nonempty := List.append_ne_nil_of_left_ne_nil fits.body_nonempty _
  body_oneLine := by
    rw [DirectiveLine.returned, List.mem_append, not_or]
    exact ⟨fits.body_oneLine, by decide⟩

theorem Fits.head?_append_ne_newline {matcher : Matcher} {line : DirectiveLine}
    (fits : line.Fits matcher) (oneLine : matcher.OneLine) (rest : Text) :
    (line.text ++ rest).head? ≠ some .newline := by
  rw [List.head?_append_of_ne_nil _ (List.length_pos_iff.mp fits.text_length_pos)]
  exact fun newline => fits.newline_notMem_text oneLine (List.mem_of_mem_head? newline)

end DirectiveLine

namespace Matcher

/-- A directive line up to its colon, with nothing behind it. -/
def Bodiless (matcher : Matcher) (line : Text) : Prop :=
  ∃ padding gap : Text, (∀ c ∈ padding, c.isBlank = true) ∧ gap ≠ [] ∧
    (∀ c ∈ gap, c.isBlank = true) ∧ line = padding ++ (matcher.marker ++ gap ++ matcher.tag ++ ":")

variable {matcher : Matcher} {line : Text}

theorem Bodiless.exists_fits (bodiless : matcher.Bodiless line) :
    ∃ parts : DirectiveLine, parts.Fits matcher ∧ parts.text = line ++ [.carriageReturn] ∧
      parts.body = [.carriageReturn] := by
  obtain ⟨padding, gap, paddingBlank, gapNonempty, gapBlank, rfl⟩ := bodiless
  let parts : DirectiveLine :=
    ⟨padding, matcher.marker ++ gap ++ matcher.tag ++ ":" ++ ([.carriageReturn] : Text),
      [.carriageReturn]⟩
  have bodyOneLine : .newline ∉ ([.carriageReturn] : Text) := by decide
  have fits : parts.Fits matcher :=
    ⟨paddingBlank, ⟨gap, gapNonempty, gapBlank, rfl⟩, List.cons_ne_nil _ _, bodyOneLine⟩
  exact ⟨parts, fits, (List.append_assoc ..).symm, rfl⟩

theorem Bodiless.isInfix {text before after : Text} (bodiless : matcher.Bodiless line)
    (ended : text.EndedLine before line after) : ":\n" <:+: text := by
  obtain ⟨padding, gap, _, _, _, rfl⟩ := bodiless
  refine ⟨before ++ (padding ++ (matcher.marker ++ gap ++ matcher.tag)), after, ?_⟩
  rw [ended.parts]
  simp only [List.append_assoc]
  rfl

theorem Bodiless.not_hasForm (bodiless : matcher.Bodiless line) (checked : matcher.Checked) :
    ¬matcher.HasForm line := by
  intro hasForm
  obtain ⟨parts, fits, same⟩ := hasForm
  obtain ⟨other, fitsOther, sameOther, body⟩ := bodiless.exists_fits
  -- There is only one way to tell the parts of the returned line apart, and it leaves no body.
  have equal : parts.returned = other := by
    apply fits.returned.eq_of_text_eq fitsOther checked
    rw [DirectiveLine.text_returned, same, sameOther]
  rw [← equal] at body
  exact fits.body_nonempty (List.append_left_eq_self.mp body)

theorem HasForm.of_append_return (hasForm : matcher.HasForm (line ++ [.carriageReturn])) :
    matcher.HasForm line ∨ matcher.Bodiless line := by
  obtain ⟨parts, fits, same⟩ := hasForm
  obtain ⟨gap, gapNonempty, gapBlank, comment⟩ := fits.comment_parts
  obtain ⟨front, last, body⟩ := (List.eq_nil_or_concat parts.body).resolve_left fits.body_nonempty
  rw [List.concat_eq_append] at body
  have shape : parts.padding ++ (matcher.marker ++ gap ++ matcher.tag ++ ":" ++ front) = line := by
    rw [DirectiveLine.text, comment, body, ← List.append_assoc _ front, ← List.append_assoc] at same
    exact List.append_inj_left' same rfl
  by_cases empty : front = []
  · rw [empty, List.append_nil] at shape
    exact .inr ⟨parts.padding, gap, fits.padding_blank, gapNonempty, gapBlank, shape.symm⟩
  · refine .inl ⟨⟨parts.padding, _, front⟩, ⟨fits.padding_blank, ⟨gap, gapNonempty, gapBlank, rfl⟩,
      empty, fun member => fits.body_oneLine ?_⟩, shape⟩
    rw [body]
    exact List.mem_append_left _ member

theorem newline_notMem_append_return (oneLine : .newline ∉ line) :
    .newline ∉ line ++ [.carriageReturn] := by
  rw [List.mem_append, not_or]
  exact ⟨oneLine, by decide⟩

theorem Checked.line?_append_return (checked : matcher.Checked) (oneLine : .newline ∉ line)
    (bodied : ¬matcher.Bodiless line) :
    matcher.line? (line ++ [.carriageReturn]) =
      (matcher.line? line).map DirectiveLine.returned := by
  cases read : matcher.line? line with
  | none =>
      rw [Option.map_none, checked.line?_eq_none_iff (newline_notMem_append_return oneLine)]
      intro hasForm
      cases hasForm.of_append_return with
      | inl formed => exact (checked.line?_eq_none_iff oneLine).mp read formed
      | inr bodiless => exact bodied bodiless
  | some parts =>
      obtain ⟨fits, same⟩ := line?_sound_of_oneLine oneLine read
      rw [← same, ← DirectiveLine.text_returned, checked.line?_eq_some fits.returned,
        Option.map_some]

end Matcher

namespace Occurrence

theorem Corresponds.behind {occurrence other : Occurrence} {text : Text}
    (corresponds : occurrence.Corresponds text.returned other) (lead : Text) :
    (occurrence.behind lead).Corresponds (lead ++ text).returned (other.behind lead.crlf) where
  padding := corresponds.padding
  parse := corresponds.parse
  start := by
    have moved := Text.returned_behind lead text (Int.natCast_nonneg occurrence.start)
    rw [← corresponds.start] at moved
    exact moved.symm
  stop := by
    have moved := Text.returned_behind lead text (Int.natCast_nonneg occurrence.stop)
    rw [← corresponds.stop] at moved
    rw [stop_behind, stop_behind, Int.natCast_add, Int.natCast_add, moved]

theorem corresponds_returned {matcher : Matcher} {parts : DirectiveLine} (fits : parts.Fits matcher)
    (oneLine : matcher.OneLine) (rest : Text) :
    Corresponds (Text.returned (parts.text ++ .newline :: rest)) { parts with start := 0 }
      { parts.returned with start := 0 } where
  padding := rfl
  parse := Command.parse_append_return parts.body
  start := by
    have visible := fits.head?_append_ne_newline oneLine (.newline :: rest)
    exact (Text.returned_zero visible).symm
  stop := by
    have lineEnd := Text.returned_lineEnd (fits.newline_notMem_text oneLine) rest
    simp only [stop, Nat.zero_add]
    rw [lineEnd, DirectiveLine.text_returned, List.length_append]
    rfl

end Occurrence

namespace Matcher

variable {matcher : Matcher} {text : Text}

theorem corresponds_crlf_line {line rest : Text} (checked : matcher.Checked)
    (oneLine : .newline ∉ line) (bodied : ¬matcher.Bodiless line)
    (corresponds : List.Forall₂ (Occurrence.Corresponds rest.returned) (matcher.occurrences rest)
      (matcher.occurrences rest.crlf)) :
    List.Forall₂ (Occurrence.Corresponds (Text.returned (line ++ .newline :: rest)))
      (matcher.occurrences (line ++ .newline :: rest))
      (matcher.occurrences (Text.crlf (line ++ .newline :: rest))) := by
  rw [Text.crlf_line oneLine, occurrences_line checked.oneLine oneLine,
    occurrences_line checked.oneLine (newline_notMem_append_return oneLine),
    checked.line?_append_return oneLine bodied]
  apply List.rel_append
  · cases read : matcher.line? line with
    | none => exact .nil
    | some parts =>
        obtain ⟨fits, rfl⟩ := line?_sound_of_oneLine oneLine read
        exact .cons (Occurrence.corresponds_returned fits checked.oneLine rest) .nil
  · rw [List.forall₂_map_left_iff, List.forall₂_map_right_iff]
    apply corresponds.imp
    intro occurrence other correspond
    have moved := correspond.behind (line ++ [.newline])
    rw [Text.crlf_line oneLine, ← List.append_cons] at moved
    exact moved

theorem corresponds_crlf (checked : matcher.Checked)
    (bodied : ∀ before line after, text.EndedLine before line after → ¬matcher.Bodiless line) :
    List.Forall₂ (Occurrence.Corresponds text.returned) (matcher.occurrences text)
      (matcher.occurrences text.crlf) := by
  induction text using Text.line_induction with
  | last line oneLine =>
      rw [Text.crlf_of_oneLine oneLine]
      apply List.forall₂_same.mpr
      intro occurrence _
      have stays (offset : Nat) := (Text.returned_of_oneLine oneLine offset).symm
      exact ⟨rfl, rfl, stays _, stays _⟩
  | more line rest oneLine induction =>
      have bodiedRest : ∀ before other after, rest.EndedLine before other after →
          ¬matcher.Bodiless other :=
        fun _ other after ended => bodied _ other after (ended.below line)
      exact corresponds_crlf_line checked oneLine (bodied [] line rest ⟨rfl, .inl rfl, oneLine⟩)
        (induction bodiedRest)

theorem occurrences_of_bodiless {before line after : Text} (checked : matcher.Checked)
    (ended : text.EndedLine before line after) (bodiless : matcher.Bodiless line) :
    matcher.occurrences text = matcher.occurrences before ++
      (matcher.occurrences after).map (Occurrence.behind (before ++ (line ++ [.newline]))) := by
  have unread := (checked.line?_eq_none_iff ended.oneLine).mpr (bodiless.not_hasForm checked)
  rw [ended.parts, occurrences_append checked.oneLine ended.start,
    occurrences_line checked.oneLine ended.oneLine, unread, Option.toList_none, List.map_nil,
    List.nil_append, List.map_map]
  congr 1
  exact List.map_congr_left fun occurrence _ => occurrence.behind_behind before _

theorem exists_rejected_of_bodiless {before line after : Text} (checked : matcher.Checked)
    (ended : text.EndedLine before line after) (bodiless : matcher.Bodiless line) :
    ∃ occurrence ∈ matcher.occurrences text.crlf,
      Command.parse occurrence.body = .error (.unknownName []) := by
  obtain ⟨parts, fits, same, body⟩ := bodiless.exists_fits
  have read := checked.line?_eq_some fits
  rw [same] at read
  refine ⟨Occurrence.behind before.crlf { parts with start := 0 }, ?_, ?_⟩
  · rw [ended.parts, Text.crlf_append, Text.crlf_line ended.oneLine,
      occurrences_append checked.oneLine (Text.ended_crlf ended.start),
      occurrences_line checked.oneLine (newline_notMem_append_return ended.oneLine), read]
    exact List.mem_append_right _ (List.mem_cons_self ..)
  · rw [Occurrence.behind, body]
    rfl

end Matcher

theorem Position.ofOffset_length (before rest : Text) :
    ofOffset (before ++ rest) before.length = .ok (after before) := by
  have inside : 0 ≤ (before.length : Int) ∧ (before.length : Int) ≤ (before ++ rest).length := by
    rw [List.length_append]
    omega
  rw [ofOffset, if_pos inside, Int.toNat_natCast, List.take_left]

theorem Position.shifts_crlf {before rest : Text}
    (ended : before = [] ∨ before.getLast? = some .newline)
    (visible : rest.head? ≠ some .newline) :
    Shifts (before ++ rest).returned id (before ++ rest) (before ++ rest).crlf before.length := by
  have moved := Text.returned_behind before rest (Int.le_refl 0)
  rw [Text.returned_zero visible, Int.zero_add, Int.zero_add] at moved
  rw [Shifts, moved, Text.crlf_append, ofOffset_length, ofOffset_length, after_of_lineStart ended,
    after_of_lineStart (Text.ended_crlf ended), Text.count_crlf]
  rfl

theorem Occurrence.StandsIn.shifts_crlf {matcher : Matcher} {text : Text} {occurrence : Occurrence}
    (stands : occurrence.StandsIn matcher text) (oneLine : matcher.OneLine) :
    Position.Shifts text.returned id text text.crlf occurrence.start := by
  obtain ⟨fits, rest, shape, _⟩ := Matcher.line?_sound stands.read
  have visible : (text.drop occurrence.start).head? ≠ some .newline := by
    rw [shape]
    exact fits.head?_append_ne_newline oneLine rest
  have shifts := Position.shifts_crlf stands.ended_take visible
  have bound := stands.stop_le_length
  have extended := stands.start_lt_stop
  rw [List.take_append_drop, List.length_take_of_le (by omega)] at shifts
  exact shifts

theorem Extraction.Error.mapPosition_id (error : Error) : error.mapPosition id = error := by
  cases error <;> rfl

/-- Carriage returns in front of the newlines move the regions, and all else stays: what is known in
them, or the error. It is different if there is a line that only lacks the body of a directive. Such
a line is skipped, but with the return it is a directive line that is none. -/
theorem extract_crlf {matcher : Matcher} (checked : matcher.Checked) (data : Fields)
    (text : Text) :
    ((∀ before line after, text.EndedLine before line after → ¬matcher.Bodiless line) →
      (extract matcher data text.crlf).outcome =
        (extract matcher data text).outcome.map (List.map (Region.relocate text.returned))) ∧
    ∀ before line after, text.EndedLine before line after → matcher.Bodiless line →
      matcher.occurrences text = matcher.occurrences before ++
        (matcher.occurrences after).map (Occurrence.behind (before ++ (line ++ [.newline]))) ∧
      ∃ error diagnostic, (extract matcher data text.crlf).outcome = .error error ∧
        error.diagnostic = .ok diagnostic ∧ diagnostic.category = .directive := by
  constructor
  · intro bodied
    have corresponds := Matcher.corresponds_crlf checked bodied
    rw [outcome_extract_of_corresponds corresponds fun occurrence member =>
      (Matcher.standsIn_of_mem_occurrences member).shifts_crlf checked.oneLine]
    cases (extract matcher data text).outcome with
    | error error => exact congrArg Except.error error.mapPosition_id
    | ok regions => rfl
  · intro before line after ended bodiless
    refine ⟨Matcher.occurrences_of_bodiless checked ended bodiless, ?_⟩
    obtain ⟨occurrence, member, rejected⟩ :=
      Matcher.exists_rejected_of_bodiless checked ended bodiless
    exact Extraction.exists_error_of_rejected member rejected data

/-- A body is missing at the end of the first text, but no newline ends that line. -/
theorem extract_crlf_of_last_line :
    let matcher : Matcher := ⟨"//", "inj"⟩
    let text : Text := "// inj:emit(null)\nold\n\t// inj:end\n// inj:"
    let other : Text := "x\n // \tinj:\n"
    (extract matcher [] text).outcome = .ok [⟨[.null], [], [], 17, 22⟩] ∧
      (extract matcher [] text.crlf).outcome = .ok [⟨[.null], [], [], 18, 24⟩] ∧
      matcher.occurrences other = [] ∧
      ∃ error diagnostic, (extract matcher [] other.crlf).outcome = .error error ∧
        error.diagnostic = .ok diagnostic ∧ diagnostic.category = .directive := by
  intro matcher text other
  have checked : matcher.Checked := ⟨rfl, rfl⟩
  have extracted : (extract matcher [] text).outcome = .ok [⟨[.null], [], [], 17, 22⟩] := by
    simp only [matcher, text]
    cbv
  have bodied : ∀ before line after, text.EndedLine before line after → ¬matcher.Bodiless line := by
    intro before line after ended bodiless
    have absent : ¬(":\n" : Text) <:+: text := by
      simp only [text]
      decide +kernel
    exact absent (bodiless.isInfix ended)
  have ended : other.EndedLine "x\n" " // \tinj:" [] := ⟨rfl, .inr rfl, by decide⟩
  have bodiless : matcher.Bodiless " // \tinj:" :=
    ⟨" ", " \t", by decide, by decide, by decide, rfl⟩
  have unchanged := (extract_crlf checked [] text).1 bodied
  obtain ⟨ignored, rejected⟩ := (extract_crlf checked [] other).2 _ _ _ ended bodiless
  refine ⟨extracted, ?_, ?_, rejected⟩
  · rw [unchanged, extracted]
    rfl
  · rw [ignored]
    rfl

end Inlay
