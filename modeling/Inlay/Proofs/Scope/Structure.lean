import Mathlib.Logic.ExistsUnique
import Inlay.Proofs.Scope.Written

/-!
Which sequences of directives have the structure of scopes and regions, and what is wrong with the
others. The shape of a sequence alone decides this, whatever the text and the data, as long as no
number is too long for a message.
-/

namespace Inlay

namespace Scope

/-- A balanced sequence, or one that is balanced up to an end, with anything behind it. -/
inductive Accepted : List Directive → Prop
  | balanced {directives : List Directive} : Balanced directives → Accepted directives
  | stopped {before : List Directive} {closer : Directive} {rest : List Directive} :
      Balanced before → closer.command = .endBlock → Accepted (before ++ closer :: rest)

/-- The shapes of the other sequences, each with what is reported about it and where. -/
inductive Broken : List Directive → Text → Int → Prop
  | disturbed {before : List Directive} {emitter other : Directive} {arguments : List Value}
      {rest : List Directive} :
      Open before → emitter.command = .emit arguments → other.command ≠ .endBlock →
      Broken (before ++ emitter :: other :: rest)
        "Emit region should not contain any directives." other.start
  | emitting {before : List Directive} {emitter : Directive} {arguments : List Value} :
      Open before → emitter.command = .emit arguments →
      Broken (before ++ [emitter]) "Emit region should end with End directive." emitter.start
  | unclosed {before : List Directive} {opener : Directive} {inner : List Directive} :
      Open before → opener.command = .beginBlock → Balanced inner →
      Broken (before ++ opener :: inner) "All scopes should end with End directive." opener.start

theorem Reaches.outcome_walk_of_final {data : Fields} {directives : List Directive} {last : Point}
    {outcome : Except Fault Unit} (reaches : Reaches ⟨data, [], directives⟩ last)
    (final : Final last outcome) : (walk data [] directives).outcome = outcome :=
  reaches.outcome_walk.trans final.outcome_walk.1

theorem Accepted.outcome_walk {directives : List Directive} (accepted : Accepted directives)
    (data : Fields) : (walk data [] directives).outcome = .ok () := by
  cases accepted with
  | balanced balanced =>
      have reaches := balanced.reaches data [] []
      rw [List.append_nil] at reaches
      exact reaches.outcome_walk_of_final .finished
  | stopped balanced isEnd =>
      exact (balanced.reaches data [] _).outcome_walk_of_final (.stopped isEnd)

theorem Broken.outcome_walk {directives : List Directive} {reason : Text} {offset : Int}
    (broken : Broken directives reason offset) (data : Fields) :
    ∃ cause : Cause, cause.reason = reason ∧
      (walk data [] directives).outcome = .error ⟨cause, offset⟩ := by
  cases broken with
  | disturbed opened isEmit notEnd =>
      obtain ⟨frames, reaches⟩ := opened.reaches data (_ :: _ :: _)
      exact ⟨.directiveInRegion, rfl,
        reaches.outcome_walk_of_final (.directiveInRegion isEmit notEnd)⟩
  | emitting opened isEmit =>
      obtain ⟨frames, reaches⟩ := opened.reaches data [_]
      exact ⟨.unclosedRegion, rfl, reaches.outcome_walk_of_final (.unclosedRegion isEmit)⟩
  | @unclosed before opener inner opened isBegin balanced =>
      obtain ⟨frames, reaches⟩ := opened.reaches data (opener :: (inner ++ []))
      have entered := (reaches.tail (.opens isBegin)).trans (balanced.reaches _ _ [])
      rw [List.append_nil] at entered
      exact ⟨.unclosedScope, rfl, Reaches.outcome_walk_of_final entered .unclosedScope⟩

theorem accepted_or_broken (directives : List Directive) :
    Accepted directives ∨ ∃ reason offset, Broken directives reason offset := by
  obtain ⟨last, reaches, final⟩ := exists_reaches_final ⟨[], [], directives⟩
  obtain ⟨passed, rfl, leads⟩ := reaches.leads
  generalize (Point.walk _).outcome = outcome at final
  cases final with
  | finished =>
      cases leads with
      | root balanced => exact .inl (.balanced (by rwa [List.append_nil]))
  | stopped isEnd =>
      cases leads with
      | root balanced => exact .inl (.stopped balanced isEnd)
  | unclosedScope =>
      cases leads with
      | block leads isBegin balanced =>
          rw [List.append_nil]
          exact .inr ⟨_, _, .unclosed leads.isOpen isBegin balanced⟩
  | unclosedRegion isEmit => exact .inr ⟨_, _, .emitting leads.isOpen isEmit⟩
  | directiveInRegion isEmit notEnd =>
      exact .inr ⟨_, _, .disturbed leads.isOpen isEmit notEnd⟩

theorem Broken.unique {directives : List Directive} {reason reason' : Text}
    {offset offset' : Int} (broken : Broken directives reason offset)
    (broken' : Broken directives reason' offset') : reason = reason' ∧ offset = offset' := by
  obtain ⟨cause, rfl, failed⟩ := broken.outcome_walk []
  obtain ⟨cause', rfl, failed'⟩ := broken'.outcome_walk []
  obtain ⟨rfl, rfl⟩ := Fault.mk.inj (Except.error.inj (failed.symm.trans failed'))
  exact ⟨rfl, rfl⟩

variable {text : Text} {data : Fields} {directives : List Directive}

theorem outcome_resolve_eq_digits_iff :
    (resolve text data directives).outcome = .error .digits ↔
      Overflowing text data directives :=
  (Point.outcome_run_eq_digits_iff text ⟨data, [], directives⟩).trans
    overflowing_iff_reaches.symm

theorem resolve_eq_walk (fits : ¬Overflowing text data directives) :
    resolve text data directives = (walk data [] directives).mapError (.ofScope text) := by
  apply @Point.run_eq_walk text ⟨data, [], directives⟩
  intro reached reaches overflows
  exact fits (overflowing_iff_reaches.mpr ⟨reached, reaches, overflows⟩)

theorem Accepted.outcome_resolve (accepted : Accepted directives)
    (fits : ¬Overflowing text data directives) :
    (resolve text data directives).outcome = .ok () := by
  rw [resolve_eq_walk fits]
  exact mapError_eq_ok_iff.mpr (accepted.outcome_walk data)

theorem Broken.outcome_resolve {reason : Text} {offset : Int}
    (broken : Broken directives reason offset) (fits : ¬Overflowing text data directives) :
    ∃ cause : Cause, cause.reason = reason ∧
      (resolve text data directives).outcome = .error (.ofScope text ⟨cause, offset⟩) := by
  obtain ⟨cause, said, failed⟩ := broken.outcome_walk data
  rw [resolve_eq_walk fits]
  exact ⟨cause, said, mapError_eq_error_iff.mpr ⟨_, failed, rfl⟩⟩

theorem outcome_resolve_eq_ok_iff :
    (resolve text data directives).outcome = .ok () ↔
      Accepted directives ∧ ¬Overflowing text data directives := by
  constructor
  · intro succeeded
    have fits : ¬Overflowing text data directives := by
      intro overflowing
      cases succeeded.symm.trans (outcome_resolve_eq_digits_iff.mpr overflowing)
    rcases accepted_or_broken directives with accepted | ⟨reason, offset, broken⟩
    · exact ⟨accepted, fits⟩
    · obtain ⟨cause, _, failed⟩ := broken.outcome_resolve fits
      cases succeeded.symm.trans failed
  · rintro ⟨accepted, fits⟩
    exact accepted.outcome_resolve fits

end Scope

end Inlay
