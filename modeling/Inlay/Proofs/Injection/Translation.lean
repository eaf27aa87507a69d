import Inlay.Proofs.Extraction.Correspondence
import Inlay.Proofs.Injection.Regeneration

namespace Inlay

namespace Text

variable {lead text : Text} {start stop : Int}

theorem slice_behind (nonnegative : 0 ≤ start) (ordered : start ≤ stop) :
    (lead ++ text).slice (start + lead.length) (stop + lead.length) = text.slice start stop := by
  have startAt : (start + lead.length).toNat = lead.length + start.toNat := by omega
  have length : (stop + lead.length).toNat - (lead.length + start.toNat) =
      stop.toNat - start.toNat := by omega
  rw [slice, slice, startAt, length, List.drop_length_add_append]

theorem slice_from_beginning (nonnegative : 0 ≤ stop) :
    (lead ++ text).slice 0 (stop + lead.length) = lead ++ text.slice 0 stop := by
  have length : (stop + lead.length).toNat - (0 : Int).toNat = lead.length + stop.toNat := by omega
  rw [slice, length, Int.toNat_zero, List.drop_zero, List.take_length_add_append]
  rfl

end Text

def Position.below (lines : Nat) (position : Position) : Position :=
  { position with line := position.line + lines }

namespace Occurrence

variable {matcher : Matcher} {text : Text}

theorem position_behind (lead : Text) {occurrence : Occurrence} :
    (occurrence.behind lead).position (lead ++ text) =
      (occurrence.position text).below (lead.count .newline) := by
  simp only [position, behind, Position.below, Nat.add_comm _ lead.length,
    List.take_length_add_append, List.count_append, Position.mk.injEq, and_true]
  omega

theorem corresponds_behind (lead : Text) (occurrence : Occurrence) :
    occurrence.Corresponds (· + lead.length) (occurrence.behind lead) where
  padding := rfl
  parse := rfl
  start := Int.natCast_add ..
  stop := by rw [stop_behind, Int.natCast_add]

end Occurrence

namespace Injection

theorem replace_behind (render : List Value → Fields → Text → Text) (lead text : Text)
    {cursor : Int} {regions : List Region} (nonnegative : 0 ≤ cursor)
    (ordered : InOrder cursor regions) :
    replace (lead ++ text) (Region.rendered render) (cursor + lead.length)
        (regions.map (Region.relocate (· + lead.length))) =
      replace text (Region.rendered render) cursor regions := by
  induction regions generalizing cursor with
  | nil =>
      have cursorAt : (cursor + lead.length).toNat = lead.length + cursor.toNat := by omega
      rw [List.map_nil, replace_nil, replace_nil, cursorAt, List.drop_length_add_append]
  | cons region rest induction =>
      obtain ⟨reached, extended, orderedRest⟩ := ordered
      have restUnchanged := induction (by omega) orderedRest
      rw [List.map_cons, replace_cons, replace_cons]
      simp only [Region.relocate] at restUnchanged ⊢
      rw [Text.slice_behind nonnegative reached, restUnchanged]
      rfl

theorem replace_from_beginning (render : List Value → Fields → Text → Text) (lead text : Text)
    {regions : List Region} (ordered : InOrder 0 regions) :
    replace (lead ++ text) (Region.rendered render) 0
        (regions.map (Region.relocate (· + lead.length))) =
      lead ++ replace text (Region.rendered render) 0 regions := by
  cases regions with
  | nil => rfl
  | cons region rest =>
      obtain ⟨reached, extended, orderedRest⟩ := ordered
      have restUnchanged := replace_behind render lead text (by omega) orderedRest
      rw [List.map_cons, replace_cons, replace_cons]
      simp only [Region.relocate] at restUnchanged ⊢
      rw [Text.slice_from_beginning reached, restUnchanged]
      simp only [List.append_assoc]
      rfl

end Injection

section

variable {matcher : Matcher} {lead : Text} (oneLine : matcher.OneLine)
  (ended : lead = [] ∨ lead.getLast? = some .newline) (quiet : matcher.occurrences lead = [])
  (data : Fields) (text : Text)

include oneLine ended quiet

theorem Matcher.occurrences_behind :
    matcher.occurrences (lead ++ text) =
      (matcher.occurrences text).map (Occurrence.behind lead) := by
  rw [Matcher.occurrences_append oneLine ended, quiet, List.nil_append]

theorem outcome_extract_behind :
    (extract matcher data (lead ++ text)).outcome =
      ((extract matcher data text).outcome.map
        (List.map (Region.relocate (· + lead.length)))).mapError
          (Extraction.Error.mapPosition (Position.below (lead.count .newline))) := by
  have moved := Matcher.occurrences_behind oneLine ended quiet text
  apply outcome_extract_of_corresponds
  · rw [moved, List.forall₂_map_right_iff]
    exact List.forall₂_same.mpr fun occurrence _ => occurrence.corresponds_behind lead
  · intro occurrence member
    have stands := Matcher.standsIn_of_mem_occurrences member
    have movedMember : occurrence.behind lead ∈ matcher.occurrences (lead ++ text) := by
      rw [moved]
      exact List.mem_map_of_mem member
    have standsMoved := Matcher.standsIn_of_mem_occurrences movedMember
    rw [Position.Shifts, stands.ofOffset_start, ← (occurrence.corresponds_behind lead).start,
      standsMoved.ofOffset_start, Occurrence.position_behind]
    rfl

theorem outcome_inject_behind (render : List Value → Fields → Text → Text) :
    (inject matcher data (Region.rendered render) (lead ++ text)).outcome =
      ((inject matcher data (Region.rendered render) text).outcome.map (lead ++ ·)).mapError
        (Extraction.Error.mapPosition (Position.below (lead.count .newline))) := by
  simp only [inject, Traced.outcome_map, outcome_extract_behind oneLine ended quiet]
  cases extracted : (extract matcher data text).outcome with
  | error error => rfl
  | ok regions =>
      have ordered := Injection.inOrder_of_extract extracted
      exact congrArg Except.ok (Injection.replace_from_beginning render lead text ordered)

end

/-- Lines in front of a text that hold no directive move its regions by their length and the
positions of its faults by their number. What is injected into the text then follows them. -/
theorem quiet_lead_moves {matcher : Matcher} (oneLine : matcher.OneLine) {lead : Text}
    (ended : lead = [] ∨ lead.getLast? = some .newline) (quiet : matcher.occurrences lead = [])
    (data : Fields) (text : Text) :
    (extract matcher data (lead ++ text)).outcome =
      ((extract matcher data text).outcome.map
        (List.map (Region.relocate (· + lead.length)))).mapError
          (Extraction.Error.mapPosition (Position.below (lead.count .newline))) ∧
    ∀ render : List Value → Fields → Text → Text,
      (inject matcher data (Region.rendered render) (lead ++ text)).outcome =
        ((inject matcher data (Region.rendered render) text).outcome.map (lead ++ ·)).mapError
          (Extraction.Error.mapPosition (Position.below (lead.count .newline))) :=
  ⟨outcome_extract_behind oneLine ended quiet data text,
    outcome_inject_behind oneLine ended quiet data text⟩

/-- The lead holds the beginning of a directive line, which is none without a body. -/
theorem quiet_lead_moves_of_bodiless :
    let matcher : Matcher := ⟨"//", "inj"⟩
    let lead : Text := "// inj:\nx\n"
    let text : Text := "  // inj:emit(null)\n// inj:end"
    let render (_ : List Value) (_ : Fields) (padding : Text) : Text := padding ++ "y"
    matcher.occurrences lead = [] ∧
      (extract matcher [] (lead ++ text)).outcome = .ok [⟨[.null], [], "  ", 29, 30⟩] ∧
      (inject matcher [] (Region.rendered render) (lead ++ text)).outcome =
        .ok (lead ++ "  // inj:emit(null)\n  y\n// inj:end") ∧
      (extract matcher [] (lead ++ "// inj:begin")).outcome =
        .error (.region .unclosedScope ⟨3, 1⟩) := by
  intro matcher lead text render
  have oneLine : matcher.OneLine := ⟨by decide, by decide⟩
  have quiet : matcher.occurrences lead = [] := rfl
  have extracted : (extract matcher [] text).outcome = .ok [⟨[.null], [], "  ", 19, 20⟩] := by
    simp only [matcher, text]
    cbv
  have failed : (extract matcher [] "// inj:begin").outcome =
      .error (.region .unclosedScope ⟨1, 1⟩) := rfl
  obtain ⟨moved, injected⟩ := quiet_lead_moves oneLine (.inr rfl) quiet [] text
  obtain ⟨movedFault, _⟩ := quiet_lead_moves oneLine (.inr rfl) quiet [] "// inj:begin"
  refine ⟨quiet, ?_, ?_, ?_⟩
  · rw [moved, extracted]
    rfl
  · rw [injected, outcome_inject_of_extract extracted]
    rfl
  · rw [movedFault, failed]
    rfl

end Inlay
