import Inlay.Proofs.Extraction.Outcome

/-!
What is reported about a text from which no regions can be extracted. The report cites a directive
line, at the column where lines start: the first line that is not a directive, wherever the structure
of the others is at fault, and only otherwise a line that shows a fault of structure.
-/

namespace Inlay

theorem Position.after_of_lineStart {before : Text}
    (ended : before = [] ∨ before.getLast? = some .newline) :
    after before = ⟨1 + before.count .newline, 1⟩ := by
  rw [after, Int.add_comm]
  cases ended with
  | inl empty =>
      subst empty
      rfl
  | inr newline =>
      obtain ⟨rest, rfl⟩ := List.getLast?_eq_some_iff.mp newline
      simp

namespace Occurrence

def position (text : Text) (occurrence : Occurrence) : Position :=
  ⟨1 + (text.take occurrence.start).count .newline, 1⟩

variable {matcher : Matcher} {text : Text} {occurrence : Occurrence}

theorem StandsIn.ended_take (stands : occurrence.StandsIn matcher text) :
    text.take occurrence.start = [] ∨
      (text.take occurrence.start).getLast? = some .newline := by
  by_cases atBeginning : occurrence.start = 0
  · rw [atBeginning]
    exact .inl rfl
  · have newline := stands.lineStart.resolve_left atBeginning
    rw [List.getLast?_take, if_neg atBeginning, newline]
    exact .inr rfl

theorem StandsIn.ofOffset_start (stands : occurrence.StandsIn matcher text) :
    Position.ofOffset text occurrence.start = .ok (occurrence.position text) := by
  have inside : 0 ≤ (occurrence.start : Int) ∧ (occurrence.start : Int) ≤ text.length := by
    have extended := stands.start_lt_stop
    have bound := stands.stop_le_length
    omega
  rw [Position.ofOffset, if_pos inside, Int.toNat_natCast,
    Position.after_of_lineStart stands.ended_take, position]

end Occurrence

namespace Extraction

theorem Error.locate_of_standsIn {matcher : Matcher} {text : Text} {occurrence : Occurrence}
    (stands : occurrence.StandsIn matcher text) (error : Position → Error) :
    locate text occurrence.start error = error (occurrence.position text) := by
  rw [locate, stands.ofOffset_start]

/-- The occurrence that a report cites, and what it says. -/
inductive Cites (matcher : Matcher) (text : Text) : Occurrence → Diagnostic → Prop
  | directive {before after : List Occurrence} {occurrence : Occurrence} {fault : Directive.Fault} :
      matcher.occurrences text = before ++ occurrence :: after →
      (∀ earlier ∈ before, ∃ command, Command.parse earlier.body = .ok command) →
      Command.parse occurrence.body = .error fault →
      Cites matcher text occurrence ⟨.directive, fault.message, occurrence.position text⟩
  | region {directives : List Directive} {occurrence : Occurrence} {reason : Text} :
      List.Forall₂ ReadsAs (matcher.occurrences text) directives →
      occurrence ∈ matcher.occurrences text →
      Scope.Broken directives reason occurrence.start →
      Cites matcher text occurrence ⟨.region, reason, occurrence.position text⟩

theorem outcome_readDirectives_of_error {text : Text} {before after : List Occurrence}
    {occurrence : Occurrence} {fault : Directive.Fault}
    (parses : ∀ earlier ∈ before, ∃ command, Command.parse earlier.body = .ok command)
    (rejected : Command.parse occurrence.body = .error fault) :
    (readDirectives text (before ++ occurrence :: after)).outcome =
      .error (.locate text occurrence.start (.directive fault)) := by
  induction before with
  | nil => simp only [List.nil_append, readDirectives, rejected, Traced.outcome_fail]
  | cons first before induction =>
      obtain ⟨command, parsed⟩ := parses first (List.mem_cons_self ..)
      have further := induction fun earlier member => parses earlier (List.mem_cons_of_mem _ member)
      simp only [List.cons_append, readDirectives, parsed, Traced.outcome_after, Traced.outcome_map,
        further]
      rfl

theorem exists_rejected_or_readsAs (occurrences : List Occurrence) :
    (∃ before occurrence after fault, occurrences = before ++ occurrence :: after ∧
      (∀ earlier ∈ before, ∃ command, Command.parse earlier.body = .ok command) ∧
      Command.parse occurrence.body = .error fault) ∨
    ∃ directives, List.Forall₂ ReadsAs occurrences directives := by
  induction occurrences with
  | nil => exact .inr ⟨[], .nil⟩
  | cons first rest induction =>
      cases parsed : Command.parse first.body with
      | error fault => exact .inl ⟨[], first, rest, fault, rfl, by simp, parsed⟩
      | ok command =>
          cases induction with
          | inl found =>
              obtain ⟨before, occurrence, after, fault, rfl, parses, rejected⟩ := found
              refine .inl ⟨first :: before, occurrence, after, fault, rfl, ?_, rejected⟩
              intro earlier member
              cases member with
              | head => exact ⟨command, parsed⟩
              | tail _ later => exact parses earlier later
          | inr read =>
              obtain ⟨directives, reads⟩ := read
              exact .inr ⟨directive first command :: directives, .cons ⟨command, parsed, rfl⟩ reads⟩

theorem parses_of_readsAs {occurrences : List Occurrence} {directives : List Directive}
    (reads : List.Forall₂ ReadsAs occurrences directives) {occurrence : Occurrence}
    (member : occurrence ∈ occurrences) :
    ∃ command, Command.parse occurrence.body = .ok command := by
  induction reads with
  | nil => contradiction
  | cons readsFirst _ induction =>
      cases member with
      | head =>
          obtain ⟨command, parsed, _⟩ := readsFirst
          exact ⟨command, parsed⟩
      | tail _ later => exact induction later

end Extraction

theorem Scope.Broken.exists_directive {directives : List Directive} {reason : Text} {offset : Int}
    (broken : Broken directives reason offset) :
    ∃ directive ∈ directives, directive.start = offset := by
  cases broken with
  | @disturbed before emitter other => exact ⟨other, by simp, rfl⟩
  | @emitting before emitter => exact ⟨emitter, by simp, rfl⟩
  | @unclosed before opener => exact ⟨opener, by simp, rfl⟩

namespace Extraction

variable {matcher : Matcher} {text : Text}

theorem isShort_of_readsAs {directives : List Directive}
    (reads : List.Forall₂ ReadsAs (matcher.occurrences text) directives) :
    ∀ directive ∈ directives, directive.IsShort text := by
  intro directive member
  have inText := inText_of_readsAs reads directive member
  obtain ⟨occurrence, _, command, parsed, rfl⟩ := exists_occurrence_of_readsAs reads member
  exact {
    start := Text.isShortOffset_of_index inText.start
    stop := Text.isShortOffset_of_index inText.stop
    command := (Command.spells_of_parse parsed).isShort }

theorem not_overflowing_of_readsAs {data : Fields} (short : data.isShort)
    {directives : List Directive}
    (reads : List.Forall₂ ReadsAs (matcher.occurrences text) directives) :
    ¬Scope.Overflowing text data directives :=
  Scope.not_overflowing short (isShort_of_readsAs reads)

theorem outcome_extract_of_rejected {before after : List Occurrence} {occurrence : Occurrence}
    {fault : Directive.Fault} (shape : matcher.occurrences text = before ++ occurrence :: after)
    (parses : ∀ earlier ∈ before, ∃ command, Command.parse earlier.body = .ok command)
    (rejected : Command.parse occurrence.body = .error fault) (data : Fields) :
    (extract matcher data text).outcome =
      .error (.directive fault (occurrence.position text)) := by
  have stands : occurrence.StandsIn matcher text :=
    Matcher.standsIn_of_mem_occurrences (by simp [shape])
  rw [outcome_extract, directivesOf, shape, outcome_readDirectives_of_error parses rejected,
    Error.locate_of_standsIn stands]

theorem Cites.exists_error {occurrence : Occurrence} {diagnostic : Diagnostic}
    (cites : Cites matcher text occurrence diagnostic) {data : Fields} (short : data.isShort) :
    ∃ error, (extract matcher data text).outcome = .error error ∧
      error.diagnostic = .ok diagnostic := by
  cases cites with
  | @directive before after _ fault shape parses rejected =>
      exact ⟨_, outcome_extract_of_rejected shape parses rejected data, rfl⟩
  | @region directives _ reason reads member broken =>
      obtain ⟨cause, rfl, failed⟩ :=
        broken.outcome_resolve (not_overflowing_of_readsAs short reads)
      refine ⟨.region cause (occurrence.position text), ?_, rfl⟩
      have stands := Matcher.standsIn_of_mem_occurrences member
      rw [outcome_extract, outcome_directivesOf_eq_ok_iff.mpr reads]
      apply map_eq_error_iff.mpr
      rw [failed]
      exact congrArg Except.error (Error.locate_of_standsIn stands _)

theorem exists_regions_or_cites (matcher : Matcher) {data : Fields} (short : data.isShort)
    (text : Text) :
    (∃ regions, (extract matcher data text).outcome = .ok regions) ∨
      ∃ occurrence diagnostic, Cites matcher text occurrence diagnostic := by
  cases exists_rejected_or_readsAs (matcher.occurrences text) with
  | inl found =>
      obtain ⟨before, occurrence, after, fault, shape, parses, rejected⟩ := found
      exact .inr ⟨occurrence, _, .directive shape parses rejected⟩
  | inr read =>
      obtain ⟨directives, reads⟩ := read
      cases Scope.accepted_or_broken directives with
      | inl accepted =>
          have fits := Scope.not_overflowing_iff.mp (not_overflowing_of_readsAs short reads)
          exact .inl ⟨_, outcome_extract_eq_ok_iff.mpr ⟨directives,
            outcome_directivesOf_eq_ok_iff.mpr reads, accepted.outcome_walk data, fits, rfl⟩⟩
      | inr found =>
          obtain ⟨reason, offset, broken⟩ := found
          obtain ⟨directive, member, rfl⟩ := broken.exists_directive
          obtain ⟨occurrence, occurs, command, _, rfl⟩ := exists_occurrence_of_readsAs reads member
          exact .inr ⟨occurrence, _, .region reads occurs broken⟩

theorem exists_cites_of_error {data : Fields} (short : data.isShort) {error : Error}
    (failed : (extract matcher data text).outcome = .error error) :
    ∃ occurrence diagnostic, error.diagnostic = .ok diagnostic ∧
      Cites matcher text occurrence diagnostic := by
  cases exists_regions_or_cites matcher short text with
  | inl extracted =>
      obtain ⟨regions, extracted⟩ := extracted
      cases extracted.symm.trans failed
  | inr found =>
      obtain ⟨occurrence, diagnostic, cites⟩ := found
      obtain ⟨other, failed', reported⟩ := cites.exists_error short
      cases failed.symm.trans failed'
      exact ⟨occurrence, diagnostic, reported, cites⟩

theorem exists_cites_of_reported {data : Fields} (short : data.isShort) {error : Error}
    {diagnostic : Diagnostic}
    (failed : (extract matcher data text).outcome = .error error)
    (reported : error.diagnostic = .ok diagnostic) :
    ∃ occurrence, Cites matcher text occurrence diagnostic := by
  obtain ⟨occurrence, other, reported', cites⟩ := exists_cites_of_error short failed
  cases reported.symm.trans reported'
  exact ⟨occurrence, cites⟩

theorem exists_error_of_rejected {occurrence : Occurrence} {fault : Directive.Fault}
    (member : occurrence ∈ matcher.occurrences text)
    (rejected : Command.parse occurrence.body = .error fault) (data : Fields) :
    ∃ error diagnostic, (extract matcher data text).outcome = .error error ∧
      error.diagnostic = .ok diagnostic ∧ diagnostic.category = .directive := by
  cases exists_rejected_or_readsAs (matcher.occurrences text) with
  | inl found =>
      obtain ⟨before, first, after, fault, shape, parses, rejected⟩ := found
      exact ⟨_, _, outcome_extract_of_rejected shape parses rejected data, rfl, rfl⟩
  | inr read =>
      obtain ⟨directives, reads⟩ := read
      obtain ⟨command, parsed⟩ := parses_of_readsAs reads member
      cases parsed.symm.trans rejected

theorem Cites.rejected_of_directive {occurrence : Occurrence} {diagnostic : Diagnostic}
    (cites : Cites matcher text occurrence diagnostic)
    (isDirective : diagnostic.category = .directive) :
    occurrence ∈ matcher.occurrences text ∧
      ∃ fault, Command.parse occurrence.body = .error fault := by
  cases cites with
  | directive shape _ rejected => exact ⟨by simp [shape], _, rejected⟩
  | region => contradiction

theorem Cites.parses_of_region {occurrence : Occurrence} {diagnostic : Diagnostic}
    (cites : Cites matcher text occurrence diagnostic) (isRegion : diagnostic.category = .region) :
    ∀ occurrence ∈ matcher.occurrences text, ∃ command,
      Command.parse occurrence.body = .ok command := by
  cases cites with
  | directive => contradiction
  | region reads => exact fun _ member => parses_of_readsAs reads member

theorem Cites.category_eq {occurrence : Occurrence} {diagnostic : Diagnostic}
    (cites : Cites matcher text occurrence diagnostic) :
    diagnostic.category = .directive ∨ diagnostic.category = .region := by
  cases cites with
  | directive => exact .inl rfl
  | region => exact .inr rfl

theorem Cites.mem_and_position {occurrence : Occurrence} {diagnostic : Diagnostic}
    (cites : Cites matcher text occurrence diagnostic) :
    occurrence ∈ matcher.occurrences text ∧
      diagnostic.position = some (occurrence.position text) := by
  cases cites with
  | directive shape => exact ⟨by simp [shape], rfl⟩
  | region _ member => exact ⟨member, rfl⟩

/-- From data with short numbers, an extraction gives regions, or a report that cites a directive
line by the position where it starts. The report is about a line that is not a directive if there is
one, and then about the first one, in the words of its fault; it is about the structure only if all
lines are directives. -/
theorem extract_reports (matcher : Matcher) {data : Fields} (short : data.isShort) (text : Text) :
    (∀ error, (extract matcher data text).outcome = .error error →
      ∃ occurrence ∈ matcher.occurrences text, ∃ diagnostic, error.diagnostic = .ok diagnostic ∧
        Cites matcher text occurrence diagnostic ∧
        (diagnostic.category = .directive ∨ diagnostic.category = .region) ∧
        diagnostic.position = some ⟨1 + (text.take occurrence.start).count .newline, 1⟩) ∧
    (∀ occurrence diagnostic, Cites matcher text occurrence diagnostic →
      ∃ error, (extract matcher data text).outcome = .error error ∧
        error.diagnostic = .ok diagnostic) ∧
    ((∃ error diagnostic, (extract matcher data text).outcome = .error error ∧
        error.diagnostic = .ok diagnostic ∧ diagnostic.category = .directive) ↔
      ∃ occurrence ∈ matcher.occurrences text, ∃ fault,
        Command.parse occurrence.body = .error fault) ∧
    ((∃ error diagnostic, (extract matcher data text).outcome = .error error ∧
        error.diagnostic = .ok diagnostic ∧ diagnostic.category = .region) →
      ∀ occurrence ∈ matcher.occurrences text, ∃ command,
        Command.parse occurrence.body = .ok command) := by
  refine ⟨?_, fun _ _ cites => cites.exists_error short, ⟨?_, ?_⟩, ?_⟩
  · intro error failed
    obtain ⟨occurrence, diagnostic, reported, cites⟩ := exists_cites_of_error short failed
    obtain ⟨member, position⟩ := cites.mem_and_position
    exact ⟨occurrence, member, diagnostic, reported, cites, cites.category_eq, position⟩
  · intro found
    obtain ⟨error, diagnostic, failed, reported, isDirective⟩ := found
    obtain ⟨occurrence, cites⟩ := exists_cites_of_reported short failed reported
    exact ⟨occurrence, cites.rejected_of_directive isDirective⟩
  · intro found
    obtain ⟨occurrence, member, fault, rejected⟩ := found
    exact exists_error_of_rejected member rejected data
  · intro found
    obtain ⟨error, diagnostic, failed, reported, isRegion⟩ := found
    obtain ⟨occurrence, cites⟩ := exists_cites_of_reported short failed reported
    exact cites.parses_of_region isRegion

/-- A begin that is not closed stands in front of the line that is cited. -/
theorem extract_reports_of_unclosed_begin :
    let data : Fields := [("a", .int 7)]
    let text : Text := "// inj:begin\n// inj:stop"
    data.isShort ∧
      ∃ error diagnostic, (extract .standard data text).outcome = .error error ∧
        error.diagnostic = .ok diagnostic ∧ diagnostic.category = .directive ∧
        ∃ occurrence ∈ Matcher.standard.occurrences text,
          Cites .standard text occurrence diagnostic ∧ diagnostic.position = some ⟨2, 1⟩ := by
  intro data text
  have short : data.isShort := by
    simp [data, Fields.isShort, Value.isShort, Text.isShort, Text.ofNat_of_lt, Text.digitLimit]
  have failed : (extract .standard data text).outcome =
      .error (.directive (.unknownName "stop") ⟨2, 1⟩) := rfl
  obtain ⟨occurrence, member, diagnostic, reported, cites, _⟩ :=
    (extract_reports .standard short text).1 _ failed
  cases reported
  exact ⟨short, _, _, failed, rfl, rfl, occurrence, member, cites, rfl⟩

end Extraction

end Inlay
