import Mathlib.Algebra.Ring.Nat
import Inlay.Proofs.Scope.Run

namespace Inlay

namespace Event

/-- How many directives a walk passes with an event. -/
def passes : Event → Nat
  | opened _ | closed _ | stopped _ | assigned _ | merged _ => 1
  | region _ => 2
  | directive _ _ | directives _ | regions _ => 0

def depth? : Event → Option Nat
  | opened depth | closed depth => some depth
  | _ => none

end Event

namespace Scope

/-- How many blocks begin among directives and do not end there. -/
def unclosed (directives : List Directive) : Nat :=
  (remaining directives).countP fun directive => directive.kind = .beginBlock

theorem unclosed_append {after : List Directive} (settled : Settled after)
    (before : List Directive) : unclosed (before ++ after) = unclosed before + unclosed after := by
  rw [unclosed, remaining_append settled, List.countP_append]
  rfl

theorem Balanced.unclosed_eq_zero {directives : List Directive} (balanced : Balanced directives) :
    unclosed directives = 0 := by
  induction balanced with
  | nil => rfl
  | @update before directive _ isUpdate induction =>
      obtain ⟨settled, kept⟩ := settled_singleton isUpdate.command_ne_endBlock
      have notBegin : directive.kind ≠ .beginBlock := by
        rcases isUpdate with ⟨fields, isAssign⟩ | ⟨fields, isMerge⟩
        · simp [Directive.kind, isAssign, Command.kind]
        · simp [Directive.kind, isMerge, Command.kind]
      rw [unclosed_append settled, induction, unclosed, kept]
      simp [notBegin]
  | region balanced isEmit isEnd induction =>
      rw [unclosed, remaining, List.foldr_append, foldr_absorb_region isEmit isEnd]
      exact induction
  | block balanced isBegin inner isEnd induction _ =>
      rw [unclosed, remaining, List.foldr_append, foldr_absorb_block isBegin inner isEnd]
      exact induction

theorem Leads.length_frames {initial data : Fields} {passed : List Directive}
    {frames : List Frame} (leads : Leads initial passed data frames) :
    frames.length = unclosed passed := by
  induction leads with
  | root balanced => exact balanced.unclosed_eq_zero.symm
  | @block passed inner data frames opener _ isBegin balanced induction =>
      obtain ⟨settled, kept⟩ : Settled [opener] ∧ remaining [opener] = [opener] :=
        settled_singleton (by simp [isBegin])
      have single : unclosed [opener] = 1 := by
        simp [unclosed, kept, Directive.kind, isBegin, Command.kind]
      rw [List.append_cons, unclosed_append balanced.settled, unclosed_append settled, single,
        balanced.unclosed_eq_zero, List.length_cons, induction]

def told (directives : List Directive) (events : List Event) : List Directive :=
  directives.take (events.map Event.passes).sum

theorem told_nil (directives : List Directive) : told directives [] = [] := rfl

theorem told_cons {first : Event} {passed : List Directive} (width : first.passes = passed.length)
    (ahead : List Directive) (events : List Event) :
    told (passed ++ ahead) (first :: events) = passed ++ told ahead events := by
  rw [told, List.map_cons, List.sum_cons, width, List.take_length_add_append, told]

theorem Step.length_passed {point next : Point} (step : Step point next) {event : Event}
    (happens : Happens point event) :
    point.ahead.length = event.passes + next.ahead.length := by
  cases step with
  | opens isBegin =>
      obtain rfl := happens.unique (.opens isBegin)
      exact Nat.add_comm _ 1
  | closes isEnd =>
      obtain rfl := happens.unique (.closes isEnd)
      exact Nat.add_comm _ 1
  | updates isUpdate =>
      rcases isUpdate with ⟨fields, isAssign⟩ | ⟨fields, isMerge⟩
      · obtain rfl := happens.unique (.assigns isAssign)
        exact Nat.add_comm _ 1
      · obtain rfl := happens.unique (.merges isMerge)
        exact Nat.add_comm _ 1
  | emits isEmit isEnd =>
      obtain rfl := happens.unique (.emits isEmit isEnd)
      exact Nat.add_comm _ 2

theorem Leads.exists_happens {initial : Fields} {passed : List Directive} {point : Point}
    (leads : Leads initial passed point.data point.frames) {before after : List Event}
    {event : Event} (split : point.walk.events = before ++ event :: after) :
    ∃ reached, Happens reached event ∧ point.ahead = told point.ahead before ++ reached.ahead ∧
      Leads initial (passed ++ told point.ahead before) reached.data reached.frames := by
  rcases step_or_final point with ⟨next, step⟩ | ⟨outcome, final⟩
  · have shorter := step.length_lt
    obtain ⟨first, happens, walked⟩ := step.walk_eq_after
    rw [walked, Traced.events_after] at split
    cases before with
    | nil =>
        obtain ⟨rfl, _⟩ := List.cons.inj split
        exact ⟨point, happens, rfl, by rwa [told_nil, List.append_nil]⟩
    | cons _ before =>
        obtain ⟨rfl, later⟩ := List.cons.inj split
        obtain ⟨more, ahead, onward⟩ := step.leads leads
        have width : first.passes = more.length := by
          have length := step.length_passed happens
          rw [ahead, List.length_append] at length
          omega
        obtain ⟨reached, happensThere, aheadThere, leadsThere⟩ := onward.exists_happens later
        rw [ahead, told_cons width]
        refine ⟨reached, happensThere, ?_, ?_⟩
        · rw [List.append_assoc, ← aheadThere]
        · rwa [← List.append_assoc]
  · rcases final.events_walk with none | ⟨other, happens, single⟩
    · simp [none] at split
    · rw [single] at split
      obtain ⟨rfl, rfl, _⟩ : before = [] ∧ event = other ∧ after = [] := by
        cases before <;> simp_all
      exact ⟨point, happens, rfl, by rwa [told_nil, List.append_nil]⟩
termination_by point.ahead.length

/-- What an event about a block tells: which directive has been passed with it, and how many blocks
are open behind that one. -/
def Counted (directives : List Directive) (before : List Event) (event : Event) : Prop :=
  ∃ directive rest, directives = told directives before ++ directive :: rest ∧
    let depth := unclosed (told directives before ++ [directive])
    (directive.command = .beginBlock ∧ event = .opened depth ∨
      directive.command = .endBlock ∧ event = .closed depth)

theorem counted_of_walk {data : Fields} {directives : List Directive} {before after : List Event}
    {event : Event} (split : (walk data [] directives).events = before ++ event :: after)
    (aboutBlock : event.depth?.isSome) : Counted directives before event := by
  have start : Leads data [] data [] := .root .nil
  obtain ⟨reached, happens, ahead, leads⟩ :=
    @Leads.exists_happens data [] ⟨data, [], directives⟩ start before after event split
  rw [List.nil_append] at leads
  have length := leads.length_frames
  cases happens with
  | @opens current frames opener rest isBegin =>
      have notEnd : opener.command ≠ .endBlock := by simp [isBegin]
      obtain ⟨settled, kept⟩ := settled_singleton notEnd
      have single : unclosed [opener] = 1 := by
        simp [unclosed, kept, Directive.kind, isBegin, Command.kind]
      refine ⟨opener, rest, ahead, .inl ⟨isBegin, ?_⟩⟩
      rw [unclosed_append settled, single, ← length]
  | @closes current frame frames closer rest isEnd =>
      have closed := (leads.close isEnd).length_frames
      exact ⟨closer, rest, ahead, .inr ⟨isEnd, by rw [← closed]⟩⟩
  | stops | assigns | merges | emits => contradiction

theorem passes_pos_of_mem_walk {data : Fields} {directives : List Directive} {event : Event}
    (member : event ∈ (walk data [] directives).events) : 0 < event.passes := by
  obtain ⟨reached, _, happens⟩ := (mem_events_walk_iff ⟨data, [], directives⟩ event).mp member
  cases happens <;> simp [Event.passes]

end Scope

end Inlay
