import Inlay.Matcher.Basic
import Inlay.Proofs.Matcher.Match
import Inlay.Settings.Sources
import Inlay.Text.Space

/-!
Matchers whose parts pass the checks of the settings. Marker and tag then hold no blanks and no
newlines, so a directive line can be told apart into its parts in one way only.
-/

namespace Inlay

theorem Settings.checkPart_eq_ok_iff {part text : Text} :
    checkPart (.str part) = .ok text ↔
      part = text ∧ part ≠ [] ∧ ∀ c ∈ part, c.isSpace = false := by
  simp only [checkPart]
  by_cases refused : part = [] ∨ part.any CodePoint.isSpace = true
  · rw [if_pos refused]
    refine ⟨nofun, ?_⟩
    intro parts
    obtain ⟨_, nonempty, spaceless⟩ := parts
    cases refused with
    | inl empty => exact absurd empty nonempty
    | inr spaced =>
        obtain ⟨c, member, space⟩ := List.any_eq_true.mp spaced
        cases (spaceless c member).symm.trans space
  · rw [if_neg refused]
    have parts : part ≠ [] ∧ ∀ c ∈ part, c.isSpace = false := by simpa using refused
    constructor
    · intro same
      exact ⟨Except.ok.inj same, parts⟩
    · intro same
      rw [same.1]

namespace Matcher

structure Checked (matcher : Matcher) : Prop where
  marker : Settings.checkPart (.str matcher.marker) = .ok matcher.marker
  tag : Settings.checkPart (.str matcher.tag) = .ok matcher.tag

theorem Checked.choose_eq_ok {matcher : Matcher} (checked : matcher.Checked) (defaults : Matcher) :
    choose defaults (some matcher.tag) (some matcher.marker) = .ok matcher := by
  have marker := (Settings.checkPart_eq_ok_iff.mp checked.marker).2.1
  have tag := (Settings.checkPart_eq_ok_iff.mp checked.tag).2.1
  simp [choose, override, marker, tag]

theorem newline_notMem_of_checkPart {part : Text}
    (checked : Settings.checkPart (.str part) = .ok part) : .newline ∉ part := by
  intro member
  have spaceless := (Settings.checkPart_eq_ok_iff.mp checked).2.2 _ member
  contradiction

theorem Checked.oneLine {matcher : Matcher} (checked : matcher.Checked) : matcher.OneLine :=
  ⟨newline_notMem_of_checkPart checked.marker, newline_notMem_of_checkPart checked.tag⟩

theorem isBlank_of_checkPart {part : Text}
    (checked : Settings.checkPart (.str part) = .ok part) : ∀ c ∈ part, c.isBlank = false := by
  intro c member
  have spaceless := (Settings.checkPart_eq_ok_iff.mp checked).2.2 c member
  cases blank : c.isBlank with
  | false => rfl
  | true => cases spaceless.symm.trans (CodePoint.isSpace_of_isBlank blank)

theorem takeWhile_isBlank_append {part : Text}
    (checked : Settings.checkPart (.str part) = .ok part) (rest : Text) :
    (part ++ rest).takeWhile CodePoint.isBlank = [] := by
  have blankless := isBlank_of_checkPart checked
  have nonempty := (Settings.checkPart_eq_ok_iff.mp checked).2.1
  cases part with
  | nil => contradiction
  | cons c part =>
      apply List.takeWhile_cons_of_neg
      simp [blankless c (List.mem_cons_self ..)]

theorem takeWhile_not_isBlank_append {gap : Text} (nonempty : gap ≠ [])
    (allBlank : ∀ c ∈ gap, c.isBlank = true) (rest : Text) :
    (gap ++ rest).takeWhile (!·.isBlank) = [] := by
  cases gap with
  | nil => contradiction
  | cons c gap =>
      apply List.takeWhile_cons_of_neg
      simp [allBlank c (List.mem_cons_self ..)]

end Matcher

namespace DirectiveLine

open Matcher

variable {matcher other : Matcher} {line line' : DirectiveLine}

/-- A line that two matchers find has the same marker for both of them, and the same blanks in front
of it. -/
theorem Fits.parts_eq (fits : line.Fits matcher) (fits' : line'.Fits other)
    (checked : matcher.Checked) (checked' : other.Checked) (same : line.text = line'.text) :
    line.padding = line'.padding ∧ matcher.marker = other.marker ∧
      matcher.tag ++ ":" ++ line.body = other.tag ++ ":" ++ line'.body := by
  obtain ⟨gap, gapNonempty, gapBlank, parts⟩ := fits.comment_parts
  obtain ⟨gap', gapNonempty', gapBlank', parts'⟩ := fits'.comment_parts
  have notBlank {part : Text} (checked : Settings.checkPart (.str part) = .ok part) :
      ∀ c ∈ part, (!c.isBlank) = true := by
    intro c member
    rw [isBlank_of_checkPart checked c member]
    rfl
  simp only [DirectiveLine.text, parts, parts', List.append_assoc] at same
  obtain ⟨samePadding, same⟩ := append_inj_of_takeWhile same fits.padding_blank
    fits'.padding_blank (takeWhile_isBlank_append checked.marker _)
    (takeWhile_isBlank_append checked'.marker _)
  obtain ⟨sameMarker, same⟩ := append_inj_of_takeWhile same (notBlank checked.marker)
    (notBlank checked'.marker) (takeWhile_not_isBlank_append gapNonempty gapBlank _)
    (takeWhile_not_isBlank_append gapNonempty' gapBlank' _)
  obtain ⟨_, same⟩ := append_inj_of_takeWhile same gapBlank gapBlank'
    (takeWhile_isBlank_append checked.tag _) (takeWhile_isBlank_append checked'.tag _)
  refine ⟨samePadding, sameMarker, ?_⟩
  simpa only [List.append_assoc] using same

theorem Fits.eq_of_text_eq (fits : line.Fits matcher) (fits' : line'.Fits matcher)
    (checked : matcher.Checked) (same : line.text = line'.text) : line = line' := by
  obtain ⟨samePadding, _, sameBody⟩ := fits.parts_eq fits' checked checked same
  have sameComment : line.comment = line'.comment := by
    rw [DirectiveLine.text, DirectiveLine.text, samePadding] at same
    exact List.append_cancel_left same
  have sameBody := List.append_cancel_left sameBody
  cases line
  cases line'
  simp_all

end DirectiveLine

namespace Matcher

variable {matcher : Matcher} {text : Text} {line : DirectiveLine}

theorem line?_sound_of_oneLine (oneLine : .newline ∉ text) (read : matcher.line? text = some line) :
    line.Fits matcher ∧ line.text = text := by
  obtain ⟨fits, rest, rfl, ended⟩ := line?_sound read
  refine ⟨fits, ?_⟩
  cases Text.head?_of_firstLine_eq_nil ended with
  | inl empty => rw [empty, List.append_nil]
  | inr newline => exact absurd (List.mem_append_right _ (List.mem_of_head? newline)) oneLine

theorem Checked.line?_eq_some (checked : matcher.Checked) (fits : line.Fits matcher) :
    matcher.line? line.text = some line := by
  obtain ⟨found, read, _⟩ := @line?_complete matcher line fits [] rfl
  rw [List.append_nil] at read
  obtain ⟨foundFits, same⟩ :=
    line?_sound_of_oneLine (fits.newline_notMem_text checked.oneLine) read
  rw [read, foundFits.eq_of_text_eq fits checked same]

theorem Checked.line?_eq_none_iff (checked : matcher.Checked) (oneLine : .newline ∉ text) :
    matcher.line? text = none ↔ ¬matcher.HasForm text := by
  constructor
  · intro unread hasForm
    obtain ⟨line, fits, rfl⟩ := hasForm
    cases unread.symm.trans (checked.line?_eq_some fits)
  · intro formless
    cases read : matcher.line? text with
    | none => rfl
    | some line => exact absurd ⟨line, line?_sound_of_oneLine oneLine read⟩ formless

end Matcher

end Inlay
