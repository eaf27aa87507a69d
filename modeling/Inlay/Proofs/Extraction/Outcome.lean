import Mathlib.Data.List.Forall2
import Inlay.Proofs.Matcher.Occurrence
import Inlay.Proofs.Scope.Structure

namespace Inlay

namespace Extraction

def ReadsAs (occurrence : Occurrence) (found : Directive) : Prop :=
  ∃ command, Command.parse occurrence.body = .ok command ∧ found = directive occurrence command

theorem outcome_readDirectives_eq_ok_iff {text : Text} {occurrences : List Occurrence}
    {directives : List Directive} :
    (readDirectives text occurrences).outcome = .ok directives ↔
      List.Forall₂ ReadsAs occurrences directives := by
  induction occurrences generalizing directives with
  | nil => simp [readDirectives, eq_comm]
  | cons occurrence rest induction =>
      rw [List.forall₂_cons_left_iff]
      simp only [readDirectives]
      cases parsed : Command.parse occurrence.body with
      | error fault => simp [ReadsAs, parsed]
      | ok command =>
          simp only [Traced.outcome_after, Traced.outcome_map, ReadsAs, parsed]
          cases read : (readDirectives text rest).outcome with
          | error fault =>
              simp only [read, reduceCtorEq, false_iff] at induction
              simp only [Except.map, reduceCtorEq, false_iff]
              rintro ⟨_, more, _, readsMore, _⟩
              exact induction readsMore
          | ok more =>
              simp only [read, Except.ok.injEq] at induction
              simp only [Except.map, Except.ok.injEq]
              constructor
              · rintro rfl
                exact ⟨_, more, ⟨command, rfl, rfl⟩, induction.mp rfl, rfl⟩
              · rintro ⟨_, others, ⟨_, rfl, rfl⟩, readsOthers, rfl⟩
                rw [induction.mpr readsOthers]

theorem outcome_directivesOf_eq_ok_iff {matcher : Matcher} {text : Text}
    {directives : List Directive} :
    (directivesOf matcher text).outcome = .ok directives ↔
      List.Forall₂ ReadsAs (matcher.occurrences text) directives :=
  outcome_readDirectives_eq_ok_iff

theorem map_span_of_readsAs {occurrences : List Occurrence} {directives : List Directive}
    (reads : List.Forall₂ ReadsAs occurrences directives) :
    directives.map (fun directive => (directive.start, directive.stop)) =
      occurrences.map fun occurrence => ((occurrence.start : Int), (occurrence.stop : Int)) := by
  induction reads with
  | nil => rfl
  | cons readsFirst _ induction =>
      obtain ⟨command, _, rfl⟩ := readsFirst
      simp only [List.map_cons, induction]
      rfl

theorem exists_occurrence_of_readsAs {occurrences : List Occurrence} {directives : List Directive}
    (reads : List.Forall₂ ReadsAs occurrences directives) {found : Directive}
    (member : found ∈ directives) : ∃ occurrence ∈ occurrences, ReadsAs occurrence found := by
  induction reads with
  | nil => contradiction
  | @cons first _ _ _ readsFirst _ induction =>
      cases member with
      | head => exact ⟨first, List.mem_cons_self .., readsFirst⟩
      | tail _ later =>
          obtain ⟨occurrence, occurs, same⟩ := induction later
          exact ⟨occurrence, List.mem_cons_of_mem _ occurs, same⟩

theorem inText_of_readsAs {matcher : Matcher} {text : Text} {directives : List Directive}
    (reads : List.Forall₂ ReadsAs (matcher.occurrences text) directives) :
    ∀ directive ∈ directives, directive.InText text := by
  intro directive member
  obtain ⟨occurrence, occurs, command, _, rfl⟩ := exists_occurrence_of_readsAs reads member
  have stands := Matcher.standsIn_of_mem_occurrences occurs
  have ordered := stands.start_lt_stop
  have within := stands.stop_le_length
  constructor
  · simp only [Extraction.directive]
    omega
  · simp only [Extraction.directive]
    omega

theorem outcome_regionsOf_eq_ok_iff {text : Text} {data : Fields} {directives : List Directive}
    {regions : List Region} :
    (regionsOf text data directives).outcome = .ok regions ↔
      (Scope.walk data [] directives).outcome = .ok () ∧
        (∀ event ∈ (Scope.walk data [] directives).events, event.isShort text) ∧
        (Scope.walk data [] directives).regions = regions := by
  rw [← Scope.not_overflowing_iff]
  constructor
  · intro resolved
    obtain ⟨_, succeeded, rfl⟩ := map_eq_ok_iff.mp resolved
    have fits := (Scope.outcome_resolve_eq_ok_iff.mp succeeded).2
    rw [Scope.resolve_eq_walk fits] at succeeded ⊢
    exact ⟨mapError_eq_ok_iff.mp succeeded, fits, rfl⟩
  · rintro ⟨succeeded, fits, rfl⟩
    refine map_eq_ok_iff.mpr ⟨(), ?_, ?_⟩
    · rw [Scope.resolve_eq_walk fits]
      exact mapError_eq_ok_iff.mpr succeeded
    · rw [Scope.resolve_eq_walk fits, Traced.regions_mapError]

end Extraction

theorem outcome_extract (matcher : Matcher) (data : Fields) (text : Text) :
    (extract matcher data text).outcome =
      match (Extraction.directivesOf matcher text).outcome with
      | .error error => .error error
      | .ok directives => (Extraction.regionsOf text data directives).outcome := by
  simp only [extract, Extraction.runStages, Extraction.Stage.run, Traced.outcome_map]
  cases read : (Extraction.directivesOf matcher text).outcome with
  | error error => simp [Traced.andThen, read, Except.map]
  | ok directives =>
      cases walked : (Extraction.regionsOf text data directives).outcome with
      | error error => simp [Traced.andThen, read, walked, Except.map]
      | ok regions => simp [Traced.andThen, read, walked, Except.map]

theorem outcome_extract_eq_ok_iff {matcher : Matcher} {data : Fields} {text : Text}
    {regions : List Region} :
    (extract matcher data text).outcome = .ok regions ↔
      ∃ directives, (Extraction.directivesOf matcher text).outcome = .ok directives ∧
        (Scope.walk data [] directives).outcome = .ok () ∧
        (∀ event ∈ (Scope.walk data [] directives).events, event.isShort text) ∧
        (Scope.walk data [] directives).regions = regions := by
  rw [outcome_extract]
  cases (Extraction.directivesOf matcher text).outcome with
  | error error => simp
  | ok directives =>
      simp only [Extraction.outcome_regionsOf_eq_ok_iff, Except.ok.injEq, exists_eq_left']

end Inlay
