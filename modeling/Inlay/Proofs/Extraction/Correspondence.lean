import Inlay.Proofs.Extraction.Report

/-!
Texts whose directive lines say the same, in the same order but at other places. What is extracted
from them is the same too, and so is what is reported about them, up to the places.
-/

namespace Inlay

/-- Another occurrence says the same where this one is moved to. -/
structure Occurrence.Corresponds (move : Int → Int) (occurrence other : Occurrence) : Prop where
  padding : other.padding = occurrence.padding
  parse : Command.parse other.body = Command.parse occurrence.body
  start : (other.start : Int) = move occurrence.start
  stop : (other.stop : Int) = move occurrence.stop

theorem Occurrence.Corresponds.directive_eq {move : Int → Int} {occurrence other : Occurrence}
    (corresponds : occurrence.Corresponds move other) (command : Command) :
    Extraction.directive other command =
      (Extraction.directive occurrence command).relocate move := by
  simp only [Extraction.directive, Directive.relocate, corresponds.padding, corresponds.start,
    corresponds.stop]

def Position.Shifts (move : Int → Int) (shift : Position → Position) (text text' : Text)
    (offset : Int) : Prop :=
  ofOffset text' (move offset) = (ofOffset text offset).map shift

namespace Extraction

def Error.mapPosition (shift : Position → Position) : Error → Error
  | directive fault position => directive fault (shift position)
  | region cause position => region cause (shift position)
  | offset fault => offset fault
  | digits => digits

variable {move : Int → Int} {shift : Position → Position} {text text' : Text}

theorem Error.locate_of_shifts {offset : Int} {error : Position → Error}
    (shifts : Position.Shifts move shift text text' offset)
    (movable : ∀ position, (error position).mapPosition shift = error (shift position)) :
    locate text' (move offset) error = (locate text offset error).mapPosition shift := by
  rw [locate, locate, shifts]
  cases Position.ofOffset text offset with
  | error fault => rfl
  | ok position => exact (movable position).symm

theorem outcome_readDirectives_of_corresponds {occurrences occurrences' : List Occurrence}
    (corresponds : List.Forall₂ (Occurrence.Corresponds move) occurrences occurrences')
    (shifts : ∀ occurrence ∈ occurrences, Position.Shifts move shift text text' occurrence.start) :
    (readDirectives text' occurrences').outcome =
      ((readDirectives text occurrences).outcome.map (List.map (Directive.relocate move))).mapError
        (Error.mapPosition shift) := by
  induction corresponds with
  | nil => rfl
  | @cons first first' rest rest' same _ induction =>
      obtain ⟨shiftsFirst, shiftsRest⟩ := List.forall_mem_cons.mp shifts
      simp only [readDirectives, same.parse]
      cases Command.parse first.body with
      | error fault =>
          rw [Traced.outcome_fail, Traced.outcome_fail, same.start]
          exact congrArg Except.error (Error.locate_of_shifts shiftsFirst fun _ => rfl)
      | ok command =>
          simp only [Traced.outcome_after, Traced.outcome_map, induction shiftsRest,
            same.directive_eq]
          cases (readDirectives text rest).outcome with
          | error error => rfl
          | ok directives => rfl

theorem exists_directive_of_fault {data : Fields} {directives : List Directive}
    {fault : Scope.Fault} (failed : (Scope.walk data [] directives).outcome = .error fault) :
    ∃ directive ∈ directives, directive.start = fault.offset := by
  cases Scope.accepted_or_broken directives with
  | inl accepted => cases (accepted.outcome_walk data).symm.trans failed
  | inr found =>
      obtain ⟨reason, offset, broken⟩ := found
      obtain ⟨cause, _, failed'⟩ := broken.outcome_walk data
      cases failed.symm.trans failed'
      exact broken.exists_directive

theorem resolve_relocate {data : Fields} {directives : List Directive}
    (inText : ∀ directive ∈ directives, directive.InText text)
    (inText' : ∀ directive ∈ directives, (directive.relocate move).InText text')
    (shifts : ∀ directive ∈ directives, Position.Shifts move shift text text' directive.start) :
    Scope.resolve text' data (directives.map (Directive.relocate move)) =
      let run := Scope.resolve text data directives
      ⟨run.events.map (Event.relocate move), run.outcome.mapError (Error.mapPosition shift)⟩ := by
  have moves : Scope.walk data [] (directives.map (Directive.relocate move)) =
      Scope.relocated move (Scope.walk data [] directives) :=
    Scope.walk_relocate move data [] directives
  have located : ((Scope.relocated move (Scope.walk data [] directives)).mapError
      (Error.ofScope text')).outcome =
      ((Scope.walk data [] directives).mapError (Error.ofScope text)).outcome.mapError
        (Error.mapPosition shift) := by
    simp only [Scope.relocated, Traced.outcome_mapError]
    cases walked : (Scope.walk data [] directives).outcome with
    | ok => rfl
    | error fault =>
        obtain ⟨directive, member, atFault⟩ := exists_directive_of_fault walked
        have shiftsFault := shifts directive member
        rw [atFault] at shiftsFault
        exact congrArg Except.error (Error.locate_of_shifts shiftsFault fun _ => rfl)
  have same := @Scope.isShort_relocate _ _ _ data _ inText inText'
  have cut := @Traced.written_map _ _ text .digits
    ((Scope.walk data [] directives).mapError (Error.ofScope text)) _ text' .digits
    (Event.relocate move) (Except.mapError (Error.mapPosition shift)) rfl same
  rw [← located] at cut
  rw [Scope.resolve, moves]
  exact cut

theorem outcome_regionsOf_relocate {data : Fields} {directives : List Directive}
    (inText : ∀ directive ∈ directives, directive.InText text)
    (inText' : ∀ directive ∈ directives, (directive.relocate move).InText text')
    (shifts : ∀ directive ∈ directives, Position.Shifts move shift text text' directive.start) :
    (regionsOf text' data (directives.map (Directive.relocate move))).outcome =
      ((regionsOf text data directives).outcome.map (List.map (Region.relocate move))).mapError
        (Error.mapPosition shift) := by
  have moves := @resolve_relocate _ _ _ _ data _ inText inText' shifts
  simp only [regionsOf, Traced.outcome_map, moves, Traced.regions,
    Event.filterMap_region?_relocate]
  cases (Scope.resolve text data directives).outcome with
  | ok => rfl
  | error error => rfl

end Extraction

open Extraction in
theorem outcome_extract_of_corresponds {matcher : Matcher} {move : Int → Int}
    {shift : Position → Position} {text text' : Text}
    (corresponds : List.Forall₂ (Occurrence.Corresponds move) (matcher.occurrences text)
      (matcher.occurrences text'))
    (shifts : ∀ occurrence ∈ matcher.occurrences text,
      Position.Shifts move shift text text' occurrence.start) (data : Fields) :
    (extract matcher data text').outcome =
      ((extract matcher data text).outcome.map (List.map (Region.relocate move))).mapError
        (Error.mapPosition shift) := by
  rw [outcome_extract, outcome_extract, directivesOf,
    outcome_readDirectives_of_corresponds corresponds shifts, ← directivesOf]
  cases read : (directivesOf matcher text).outcome with
  | error error => rfl
  | ok directives =>
      have reads := outcome_directivesOf_eq_ok_iff.mp read
      have readsMoved : List.Forall₂ ReadsAs (matcher.occurrences text')
          (directives.map (Directive.relocate move)) := by
        apply outcome_directivesOf_eq_ok_iff.mp
        rw [directivesOf, outcome_readDirectives_of_corresponds corresponds shifts, ← directivesOf,
          read]
        rfl
      apply outcome_regionsOf_relocate (inText_of_readsAs reads)
        (List.forall_mem_map.mp (inText_of_readsAs readsMoved))
      intro directive member
      obtain ⟨occurrence, occurs, command, _, rfl⟩ := exists_occurrence_of_readsAs reads member
      exact shifts occurrence occurs

end Inlay
