import Inlay.Proofs.Matcher.Checked

namespace Inlay

def Text.ProperPrefix (lead text : Text) : Prop :=
  lead <+: text ∧ lead ≠ text

/-- Two tags are the same, or one of them with its colon goes on after the other with its colon. -/
inductive Matcher.Related (tag other : Text) : Prop
  | same : tag = other → Related tag other
  | longer : Text.ProperPrefix (tag ++ ":") (other ++ ":") → Related tag other
  | shorter : Text.ProperPrefix (other ++ ":") (tag ++ ":") → Related tag other

theorem Matcher.related_of_append_eq {tag other body body' : Text}
    (same : tag ++ ":" ++ body = other ++ ":" ++ body') : Related tag other := by
  by_cases equal : tag = other
  · exact .same equal
  · have different : tag ++ Text.ofString ":" ≠ other ++ ":" :=
      fun withColon => equal (List.append_cancel_right withColon)
    have begins : tag ++ Text.ofString ":" <+: other ++ ":" ++ body' := ⟨body, same⟩
    cases List.prefix_or_prefix_of_prefix begins (List.prefix_append _ body') with
    | inl longer => exact .longer ⟨longer, different⟩
    | inr shorter => exact .shorter ⟨shorter, different.symm⟩

namespace Occurrence

variable {matcher other : Matcher} {text : Text} {occurrence occurrence' : Occurrence}

theorem StandsIn.stop_lt_of_lineStart (stands : occurrence.StandsIn matcher text)
    (oneLine : matcher.OneLine) {start : Nat} (starts : text.LineStart start)
    (behind : occurrence.start < start) : occurrence.stop < start := by
  have outside : ¬start < occurrence.stop := fun inside =>
    stands.not_lineStart oneLine behind inside starts
  -- The character in front of a line is a newline, but an occurrence ends with its body.
  have apart : start ≠ occurrence.stop := by
    rintro rfl
    cases starts with
    | inl beginning => omega
    | inr newline => exact stands.ne_newline_before_stop newline
  omega

theorem StandsIn.start_eq_or_apart (stands : occurrence.StandsIn matcher text)
    (stands' : occurrence'.StandsIn other text) (oneLine : matcher.OneLine)
    (oneLine' : other.OneLine) :
    occurrence.start = occurrence'.start ∨ occurrence.stop < occurrence'.start ∨
      occurrence'.stop < occurrence.start := by
  rcases Nat.lt_trichotomy occurrence.start occurrence'.start with before | same | behind
  · exact .inr (.inl (stands.stop_lt_of_lineStart oneLine stands'.lineStart before))
  · exact .inl same
  · exact .inr (.inr (stands'.stop_lt_of_lineStart oneLine' stands.lineStart behind))

theorem StandsIn.text_eq (stands : occurrence.StandsIn matcher text)
    (stands' : occurrence'.StandsIn other text) (oneLine : matcher.OneLine)
    (oneLine' : other.OneLine) (same : occurrence.start = occurrence'.start) :
    occurrence.text = occurrence'.text := by
  rw [← stands.firstLine_eq oneLine, ← stands'.firstLine_eq oneLine', same]

end Occurrence

namespace Matcher

theorem Checked.shared_line {matcher other : Matcher} {text : Text}
    {occurrence occurrence' : Occurrence} (checked : matcher.Checked) (checked' : other.Checked)
    (stands : occurrence.StandsIn matcher text) (stands' : occurrence'.StandsIn other text)
    (same : occurrence.start = occurrence'.start) :
    occurrence.stop = occurrence'.stop ∧ matcher.marker = other.marker ∧
      occurrence.padding = occurrence'.padding ∧ Related matcher.tag other.tag := by
  have sameText := stands.text_eq stands' checked.oneLine checked'.oneLine same
  obtain ⟨samePadding, sameMarker, sameRest⟩ :=
    stands.fits.parts_eq stands'.fits checked checked' sameText
  refine ⟨?_, sameMarker, samePadding, related_of_append_eq sameRest⟩
  rw [Occurrence.stop, Occurrence.stop, same, sameText]

/-- A line that is an occurrence for two checked matchers has one marker and one padding for both,
and their tags are related. So matchers with other markers or unrelated tags have no line in common,
and there is a newline between any two of their occurrences. -/
theorem shared_lines_are_related {matcher other : Matcher} (checked : matcher.Checked)
    (checked' : other.Checked) (text : Text) :
    (∀ occurrence ∈ matcher.occurrences text, ∀ occurrence' ∈ other.occurrences text,
      occurrence.start = occurrence'.start →
        occurrence.stop = occurrence'.stop ∧ matcher.marker = other.marker ∧
          occurrence.padding = occurrence'.padding ∧ Related matcher.tag other.tag) ∧
    (matcher.marker ≠ other.marker ∨ ¬Related matcher.tag other.tag →
      ∀ occurrence ∈ matcher.occurrences text, ∀ occurrence' ∈ other.occurrences text,
        occurrence.stop < occurrence'.start ∨ occurrence'.stop < occurrence.start) := by
  constructor
  · intro occurrence member occurrence' member' same
    exact checked.shared_line checked' (standsIn_of_mem_occurrences member)
      (standsIn_of_mem_occurrences member') same
  · intro unrelated occurrence member occurrence' member'
    have stands := standsIn_of_mem_occurrences member
    have stands' := standsIn_of_mem_occurrences member'
    refine (stands.start_eq_or_apart stands' checked.oneLine checked'.oneLine).resolve_left ?_
    intro same
    obtain ⟨_, sameMarker, _, related⟩ := checked.shared_line checked' stands stands' same
    cases unrelated with
    | inl differ => exact differ sameMarker
    | inr unrelated => exact unrelated related

/-- The colon inside of the longer tag ends the shorter one. -/
theorem shared_lines_are_related_of_colon :
    let matcher : Matcher := ⟨"//", "a"⟩
    let longer : Matcher := ⟨"//", "a:b"⟩
    let other : Matcher := ⟨"//", "ab"⟩
    let text : Text := "x\n\t// a:b:end\n// ab:begin"
    matcher.occurrences text = [⟨⟨"\t", "// a:b:end", "b:end"⟩, 2⟩] ∧
      longer.occurrences text = [⟨⟨"\t", "// a:b:end", "end"⟩, 2⟩] ∧
      other.occurrences text = [⟨⟨"", "// ab:begin", "begin"⟩, 14⟩] ∧
      Related matcher.tag longer.tag ∧ ¬Related matcher.tag other.tag ∧
      ∀ occurrence ∈ matcher.occurrences text, ∀ occurrence' ∈ other.occurrences text,
        occurrence.stop < occurrence'.start ∨ occurrence'.stop < occurrence.start := by
  intro matcher longer other text
  have checked : matcher.Checked := ⟨rfl, rfl⟩
  have checkedLonger : longer.Checked := ⟨rfl, rfl⟩
  have checkedOther : other.Checked := ⟨rfl, rfl⟩
  have found : matcher.occurrences text = [⟨⟨"\t", "// a:b:end", "b:end"⟩, 2⟩] := by decide +kernel
  have foundLonger : longer.occurrences text = [⟨⟨"\t", "// a:b:end", "end"⟩, 2⟩] := by
    decide +kernel
  obtain ⟨_, _, _, related⟩ := (shared_lines_are_related checked checkedLonger text).1
    ⟨⟨"\t", "// a:b:end", "b:end"⟩, 2⟩ (by rw [found]; exact List.mem_cons_self ..)
    ⟨⟨"\t", "// a:b:end", "end"⟩, 2⟩ (by rw [foundLonger]; exact List.mem_cons_self ..) rfl
  have unrelated : ¬Related matcher.tag other.tag := by
    intro related
    cases related with
    | same equal => exact absurd equal (by decide)
    | longer longer => exact absurd longer.1 (by decide)
    | shorter shorter => exact absurd shorter.1 (by decide)
  exact ⟨found, foundLonger, by decide +kernel, related, unrelated,
    (shared_lines_are_related checked checkedOther text).2 (.inr unrelated)⟩

end Matcher

end Inlay
