import Mathlib.Logic.Relation
import Inlay.Proofs.Scope.Balance
import Inlay.Proofs.Scope.Walk

/-!
The walk as a machine. At each point of a walk either one step leads on or the walk is over, and
what has been passed says which blocks are open and which data they have.
-/

namespace Inlay.Scope

/-- Where a walk stands: the data of the innermost scope, the open blocks, what lies ahead. -/
structure Point where
  data : Fields
  frames : List Frame
  ahead : List Directive

def Point.walk (point : Point) : Traced Fault Unit :=
  Scope.walk point.data point.frames point.ahead

inductive Step : Point → Point → Prop
  | opens {data : Fields} {frames : List Frame} {opener : Directive} {rest : List Directive} :
      opener.command = .beginBlock →
      Step ⟨data, frames, opener :: rest⟩ ⟨data, ⟨opener, data⟩ :: frames, rest⟩
  | closes {data : Fields} {frame : Frame} {frames : List Frame} {closer : Directive}
      {rest : List Directive} :
      closer.command = .endBlock →
      Step ⟨data, frame :: frames, closer :: rest⟩ ⟨frame.outerData, frames, rest⟩
  | updates {data : Fields} {frames : List Frame} {directive : Directive}
      {rest : List Directive} :
      directive.IsUpdate →
      Step ⟨data, frames, directive :: rest⟩ ⟨directive.update data, frames, rest⟩
  | emits {data : Fields} {frames : List Frame} {emitter closer : Directive}
      {arguments : List Value} {rest : List Directive} :
      emitter.command = .emit arguments → closer.command = .endBlock →
      Step ⟨data, frames, emitter :: closer :: rest⟩ ⟨data, frames, rest⟩

/-- The points at which a walk is over, and how it ends there. -/
inductive Final : Point → Except Fault Unit → Prop
  | finished {data : Fields} : Final ⟨data, [], []⟩ (.ok ())
  | stopped {data : Fields} {closer : Directive} {rest : List Directive} :
      closer.command = .endBlock → Final ⟨data, [], closer :: rest⟩ (.ok ())
  | unclosedScope {data : Fields} {frame : Frame} {frames : List Frame} :
      Final ⟨data, frame :: frames, []⟩ (.error ⟨.unclosedScope, frame.opener.start⟩)
  | unclosedRegion {data : Fields} {frames : List Frame} {emitter : Directive}
      {arguments : List Value} :
      emitter.command = .emit arguments →
      Final ⟨data, frames, [emitter]⟩ (.error ⟨.unclosedRegion, emitter.start⟩)
  | directiveInRegion {data : Fields} {frames : List Frame} {emitter other : Directive}
      {arguments : List Value} {rest : List Directive} :
      emitter.command = .emit arguments → other.command ≠ .endBlock →
      Final ⟨data, frames, emitter :: other :: rest⟩ (.error ⟨.directiveInRegion, other.start⟩)

def Reaches : Point → Point → Prop :=
  Relation.ReflTransGen Step

inductive Completes : Point → Region → Prop
  | intro {data : Fields} {frames : List Frame} {emitter closer : Directive}
      {arguments : List Value} {rest : List Directive} :
      emitter.command = .emit arguments → closer.command = .endBlock →
      Completes ⟨data, frames, emitter :: closer :: rest⟩ (region emitter arguments data closer)

/-- What a walk tells of at a point. -/
inductive Happens : Point → Event → Prop
  | opens {data : Fields} {frames : List Frame} {opener : Directive} {rest : List Directive} :
      opener.command = .beginBlock →
      Happens ⟨data, frames, opener :: rest⟩ (.opened (frames.length + 1))
  | closes {data : Fields} {frame : Frame} {frames : List Frame} {closer : Directive}
      {rest : List Directive} :
      closer.command = .endBlock →
      Happens ⟨data, frame :: frames, closer :: rest⟩ (.closed frames.length)
  | stops {data : Fields} {closer : Directive} {rest : List Directive} :
      closer.command = .endBlock →
      Happens ⟨data, [], closer :: rest⟩ (.stopped closer.start)
  | assigns {data fields : Fields} {frames : List Frame} {directive : Directive}
      {rest : List Directive} :
      directive.command = .assign fields →
      Happens ⟨data, frames, directive :: rest⟩ (.assigned (data.overlay fields))
  | merges {data fields : Fields} {frames : List Frame} {directive : Directive}
      {rest : List Directive} :
      directive.command = .merge fields →
      Happens ⟨data, frames, directive :: rest⟩ (.merged (data.merge fields))
  | emits {data : Fields} {frames : List Frame} {emitter closer : Directive}
      {arguments : List Value} {rest : List Directive} :
      emitter.command = .emit arguments → closer.command = .endBlock →
      Happens ⟨data, frames, emitter :: closer :: rest⟩
        (.region (region emitter arguments data closer))

theorem step_or_final (point : Point) :
    (∃ next, Step point next) ∨ ∃ outcome, Final point outcome := by
  obtain ⟨data, frames, ahead⟩ := point
  cases ahead with
  | nil =>
      cases frames with
      | nil => exact .inr ⟨_, .finished⟩
      | cons frame frames => exact .inr ⟨_, .unclosedScope⟩
  | cons directive rest =>
      cases command : directive.command with
      | beginBlock => exact .inl ⟨_, .opens command⟩
      | endBlock =>
          cases frames with
          | nil => exact .inr ⟨_, .stopped command⟩
          | cons frame frames => exact .inl ⟨_, .closes command⟩
      | assign fields => exact .inl ⟨_, .updates (.inl ⟨fields, command⟩)⟩
      | merge fields => exact .inl ⟨_, .updates (.inr ⟨fields, command⟩)⟩
      | emit arguments =>
          cases rest with
          | nil => exact .inr ⟨_, .unclosedRegion command⟩
          | cons closer rest =>
              by_cases isEnd : closer.command = .endBlock
              · exact .inl ⟨_, .emits command isEnd⟩
              · exact .inr ⟨_, .directiveInRegion command isEnd⟩

theorem Final.outcome_walk {point : Point} {outcome : Except Fault Unit}
    (final : Final point outcome) :
    point.walk.outcome = outcome ∧ point.walk.regions = [] := by
  cases final with
  | finished => exact ⟨rfl, rfl⟩
  | stopped isEnd =>
      rw [Point.walk, walk_endBlock_root isEnd]
      exact ⟨rfl, rfl⟩
  | unclosedScope => exact ⟨rfl, rfl⟩
  | unclosedRegion isEmit =>
      rw [Point.walk, walk_emit_last isEmit]
      exact ⟨rfl, rfl⟩
  | directiveInRegion isEmit notEnd =>
      rw [Point.walk, walk_emit_disturbed isEmit notEnd]
      exact ⟨rfl, rfl⟩

theorem Final.not_completes {point : Point} {outcome : Except Fault Unit}
    (final : Final point outcome) {found : Region} : ¬Completes point found := by
  intro completes
  cases completes with
  | intro isEmit isEnd =>
      cases final with
      | stopped isEnd' => simp [isEmit] at isEnd'
      | directiveInRegion _ notEnd => exact notEnd isEnd

theorem Happens.unique {point : Point} {event other : Event} (happens : Happens point event)
    (happens' : Happens point other) : event = other := by
  cases happens with
  | opens isBegin => cases happens' <;> simp_all
  | closes isEnd => cases happens' <;> simp_all
  | stops isEnd => cases happens' <;> simp_all
  | assigns isAssign => cases happens' <;> simp_all
  | merges isMerge => cases happens' <;> simp_all
  | emits isEmit isEnd => cases happens' <;> simp_all

theorem Happens.completes_iff {point : Point} {event : Event} (happens : Happens point event)
    {found : Region} : Completes point found ↔ event.region? = some found := by
  constructor
  · rintro ⟨isEmit, isEnd⟩
    obtain rfl := happens.unique (.emits isEmit isEnd)
    rfl
  · intro completed
    cases happens with
    | emits isEmit isEnd =>
        cases completed
        exact .intro isEmit isEnd
    | _ => contradiction

theorem Step.walk_eq_after {point next : Point} (step : Step point next) :
    ∃ event, Happens point event ∧ point.walk = next.walk.after event := by
  cases step with
  | opens isBegin => exact ⟨_, .opens isBegin, walk_beginBlock isBegin⟩
  | closes isEnd => exact ⟨_, .closes isEnd, walk_endBlock isEnd⟩
  | updates isUpdate =>
      rcases isUpdate with ⟨fields, isAssign⟩ | ⟨fields, isMerge⟩
      · rw [Point.walk, Point.walk, Directive.update, isAssign]
        exact ⟨_, .assigns isAssign, walk_assign isAssign⟩
      · rw [Point.walk, Point.walk, Directive.update, isMerge]
        exact ⟨_, .merges isMerge, walk_merge isMerge⟩
  | emits isEmit isEnd => exact ⟨_, .emits isEmit isEnd, walk_emit isEmit isEnd⟩

theorem Happens.exists_walk_eq_after {point : Point} {event : Event}
    (happens : Happens point event) :
    ∃ rest : Traced Fault Unit, point.walk = rest.after event := by
  cases happens with
  | opens isBegin => exact ⟨_, walk_beginBlock isBegin⟩
  | closes isEnd => exact ⟨_, walk_endBlock isEnd⟩
  | stops isEnd => exact ⟨_, walk_endBlock_root isEnd⟩
  | assigns isAssign => exact ⟨_, walk_assign isAssign⟩
  | merges isMerge => exact ⟨_, walk_merge isMerge⟩
  | emits isEmit isEnd => exact ⟨_, walk_emit isEmit isEnd⟩

theorem Final.events_walk {point : Point} {outcome : Except Fault Unit}
    (final : Final point outcome) :
    point.walk.events = [] ∨ ∃ event, Happens point event ∧ point.walk.events = [event] := by
  cases final with
  | finished => exact .inl rfl
  | stopped isEnd =>
      rw [Point.walk, walk_endBlock_root isEnd]
      exact .inr ⟨_, .stops isEnd, rfl⟩
  | unclosedScope => exact .inl rfl
  | unclosedRegion isEmit =>
      rw [Point.walk, walk_emit_last isEmit]
      exact .inl rfl
  | directiveInRegion isEmit notEnd =>
      rw [Point.walk, walk_emit_disturbed isEmit notEnd]
      exact .inl rfl

theorem Final.mem_events_walk {point : Point} {outcome : Except Fault Unit}
    (final : Final point outcome) (event : Event) :
    event ∈ point.walk.events ↔ Happens point event := by
  constructor
  · intro member
    rcases final.events_walk with none | ⟨other, happens, single⟩
    · rw [none] at member
      contradiction
    · rw [single, List.mem_singleton] at member
      exact member ▸ happens
  · intro happens
    obtain ⟨rest, walked⟩ := happens.exists_walk_eq_after
    rw [walked]
    exact List.mem_cons_self

theorem Step.length_lt {point next : Point} (step : Step point next) :
    next.ahead.length < point.ahead.length := by
  cases step with
  | opens | closes | updates => exact Nat.lt_succ_self _
  | emits => exact Nat.lt_add_of_pos_right Nat.two_pos

theorem Step.deterministic {point next other : Point} (step : Step point next)
    (step' : Step point other) : next = other := by
  cases step with
  | opens isBegin => cases step' <;> simp_all [Directive.IsUpdate]
  | closes isEnd => cases step' <;> simp_all [Directive.IsUpdate]
  | updates isUpdate => cases step' <;> simp_all [Directive.IsUpdate]
  | emits isEmit isEnd => cases step' <;> simp_all [Directive.IsUpdate]

theorem Final.not_step {point next : Point} {outcome : Except Fault Unit}
    (final : Final point outcome) : ¬Step point next := by
  intro step
  cases final with
  | finished => cases step
  | stopped isEnd => cases step <;> simp_all [Directive.IsUpdate]
  | unclosedScope => cases step
  | unclosedRegion isEmit => cases step <;> simp_all [Directive.IsUpdate]
  | directiveInRegion isEmit notEnd => cases step <;> simp_all [Directive.IsUpdate]

/-- As steps are deterministic, a run goes through the next point or has not started. -/
theorem Step.reaches_iff {point next reached : Point} (step : Step point next) :
    Reaches point reached ↔ reached = point ∨ Reaches next reached := by
  constructor
  · intro reaches
    rcases reaches.cases_head with rfl | ⟨other, first, later⟩
    · exact .inl rfl
    · exact .inr (first.deterministic step ▸ later)
  · rintro (rfl | later)
    · exact .refl
    · exact later.head step

theorem Reaches.outcome_walk {point last : Point} (reaches : Reaches point last) :
    point.walk.outcome = last.walk.outcome := by
  induction reaches with
  | refl => rfl
  | tail _ step induction =>
      obtain ⟨event, _, walked⟩ := step.walk_eq_after
      rw [induction, walked, Traced.outcome_after]

theorem Reaches.length_le {point last : Point} (reaches : Reaches point last) :
    last.ahead.length ≤ point.ahead.length := by
  induction reaches with
  | refl => exact Nat.le_refl _
  | tail _ step induction => exact Nat.le_trans (Nat.le_of_lt step.length_lt) induction

theorem exists_reaches_final (point : Point) :
    ∃ last, Reaches point last ∧ Final last point.walk.outcome := by
  rcases step_or_final point with ⟨next, step⟩ | ⟨outcome, final⟩
  · have shorter := step.length_lt
    obtain ⟨last, reaches, final⟩ := exists_reaches_final next
    have onward : Reaches point last := reaches.head step
    exact ⟨last, onward, by rwa [onward.outcome_walk, ← reaches.outcome_walk]⟩
  · exact ⟨point, .refl, by rwa [final.outcome_walk.1]⟩
termination_by point.ahead.length

theorem mem_events_walk_iff (point : Point) (event : Event) :
    event ∈ point.walk.events ↔ ∃ reached, Reaches point reached ∧ Happens reached event := by
  rcases step_or_final point with ⟨next, step⟩ | ⟨outcome, final⟩
  · have shorter := step.length_lt
    obtain ⟨first, happens, walked⟩ := step.walk_eq_after
    rw [walked, Traced.events_after, List.mem_cons, mem_events_walk_iff next]
    constructor
    · rintro (rfl | ⟨reached, reaches, happens'⟩)
      · exact ⟨point, .refl, happens⟩
      · exact ⟨reached, reaches.head step, happens'⟩
    · rintro ⟨reached, reaches, happens'⟩
      rcases step.reaches_iff.mp reaches with rfl | later
      · exact .inl (happens'.unique happens)
      · exact .inr ⟨reached, later, happens'⟩
  · rw [final.mem_events_walk]
    constructor
    · intro happens
      exact ⟨point, .refl, happens⟩
    · rintro ⟨reached, reaches, happens⟩
      rcases reaches.cases_head with rfl | ⟨next, step, _⟩
      · exact happens
      · exact absurd step final.not_step
termination_by point.ahead.length

/-- The sequence `passed` leads to these open blocks and this data of the innermost one. -/
inductive Leads (initial : Fields) : List Directive → Fields → List Frame → Prop
  | root {passed : List Directive} :
      Balanced passed → Leads initial passed (visible initial passed) []
  | block {passed inner : List Directive} {data : Fields} {frames : List Frame}
      {opener : Directive} :
      Leads initial passed data frames → opener.command = .beginBlock → Balanced inner →
      Leads initial (passed ++ opener :: inner) (visible data inner) (⟨opener, data⟩ :: frames)

theorem Leads.isOpen {initial data : Fields} {passed : List Directive} {frames : List Frame}
    (leads : Leads initial passed data frames) : Open passed := by
  induction leads with
  | root balanced => exact .balanced balanced
  | block _ isBegin inner induction => exact .begun induction isBegin inner

theorem Leads.data_eq_visible {initial data : Fields} {passed : List Directive}
    {frames : List Frame} (leads : Leads initial passed data frames) :
    data = visible initial passed := by
  induction leads with
  | root => rfl
  | @block passed inner data frames opener _ isBegin balanced induction =>
      have notEnd : opener.command ≠ .endBlock := by simp [isBegin]
      have begins : Directive.update opener data = data := by simp [Directive.update, isBegin]
      rw [List.append_cons, visible_append balanced.settled,
        visible_append (settled_singleton notEnd).1, visible_singleton notEnd, ← induction, begins]

theorem Leads.append {initial data : Fields} {passed more : List Directive}
    {frames : List Frame} (leads : Leads initial passed data frames) (balanced : Balanced more) :
    Leads initial (passed ++ more) (visible data more) frames := by
  cases leads with
  | root first =>
      rw [← visible_append balanced.settled]
      exact .root (first.append balanced)
  | block leads isBegin inner =>
      rw [List.append_assoc, List.cons_append, ← visible_append balanced.settled]
      exact .block leads isBegin (inner.append balanced)

theorem Leads.close {initial data : Fields} {passed : List Directive} {frame : Frame}
    {frames : List Frame} {closer : Directive}
    (leads : Leads initial passed data (frame :: frames)) (isEnd : closer.command = .endBlock) :
    Leads initial (passed ++ [closer]) frame.outerData frames := by
  cases leads with
  | @block passed inner data _ opener leads isBegin balanced =>
      have whole := leads.append (Balanced.block .nil isBegin balanced isEnd)
      rw [List.nil_append, visible_block isBegin balanced isEnd] at whole
      rwa [List.append_assoc]

theorem Step.leads {initial : Fields} {passed : List Directive} {point next : Point}
    (step : Step point next) (leads : Leads initial passed point.data point.frames) :
    ∃ more, point.ahead = more ++ next.ahead ∧
      Leads initial (passed ++ more) next.data next.frames := by
  cases step with
  | @opens data frames opener rest isBegin => exact ⟨[opener], rfl, .block leads isBegin .nil⟩
  | @closes data frame frames closer rest isEnd => exact ⟨[closer], rfl, leads.close isEnd⟩
  | @updates data frames directive rest isUpdate =>
      have whole := leads.append (Balanced.update .nil isUpdate)
      rw [List.nil_append, visible_singleton isUpdate.command_ne_endBlock] at whole
      exact ⟨[directive], rfl, whole⟩
  | @emits data frames emitter closer arguments rest isEmit isEnd =>
      have whole := leads.append (Balanced.region .nil isEmit isEnd)
      rw [List.nil_append, visible_region isEmit isEnd] at whole
      exact ⟨[emitter, closer], rfl, whole⟩

theorem Reaches.leads {initial : Fields} {directives : List Directive} {point : Point}
    (reaches : Reaches ⟨initial, [], directives⟩ point) :
    ∃ passed, directives = passed ++ point.ahead ∧
      Leads initial passed point.data point.frames := by
  induction reaches with
  | refl => exact ⟨[], rfl, .root .nil⟩
  | tail _ step induction =>
      obtain ⟨passed, rfl, leads⟩ := induction
      obtain ⟨more, ahead, onward⟩ := step.leads leads
      exact ⟨passed ++ more, by rw [ahead, List.append_assoc], onward⟩

theorem Balanced.reaches {directives : List Directive} (balanced : Balanced directives)
    (data : Fields) (frames : List Frame) (rest : List Directive) :
    Reaches ⟨data, frames, directives ++ rest⟩ ⟨visible data directives, frames, rest⟩ := by
  induction balanced generalizing data frames rest with
  | nil => exact .refl
  | @update before directive _ isUpdate induction =>
      have notEnd := isUpdate.command_ne_endBlock
      rw [List.append_assoc, visible_append (settled_singleton notEnd).1,
        visible_singleton notEnd]
      exact (induction data frames _).tail (.updates isUpdate)
  | @region before emitter closer arguments balanced isEmit isEnd induction =>
      have settled : Settled [emitter, closer] := (Balanced.region .nil isEmit isEnd).settled
      rw [List.append_assoc, visible_append settled, visible_region isEmit isEnd]
      exact (induction data frames _).tail (.emits isEmit isEnd)
  | @block before inner opener closer balanced isBegin inside isEnd induction within =>
      have settled : Settled (opener :: inner ++ [closer]) :=
        (Balanced.block .nil isBegin inside isEnd).settled
      rw [List.append_assoc, visible_append settled, visible_block isBegin inside isEnd,
        List.append_assoc, List.cons_append]
      have entered := (induction data frames (opener :: (inner ++ ([closer] ++ rest)))).tail
        (.opens isBegin)
      exact (entered.trans (within _ _ _)).tail (.closes isEnd)

theorem Open.reaches {directives : List Directive} (opened : Open directives)
    (initial : Fields) (rest : List Directive) :
    ∃ frames, Reaches ⟨initial, [], directives ++ rest⟩
      ⟨visible initial directives, frames, rest⟩ := by
  obtain ⟨data, frames, reaches⟩ :
      ∃ data frames, Reaches ⟨initial, [], directives ++ rest⟩ ⟨data, frames, rest⟩ := by
    induction opened generalizing rest with
    | balanced balanced => exact ⟨_, _, balanced.reaches initial [] rest⟩
    | @begun before inner opener _ isBegin inside induction =>
        obtain ⟨data, frames, reaches⟩ := induction (opener :: (inner ++ rest))
        rw [List.append_assoc, List.cons_append]
        exact ⟨_, _, (reaches.tail (.opens isBegin)).trans (inside.reaches _ _ rest)⟩
  obtain ⟨passed, split, leads⟩ := reaches.leads
  obtain rfl := List.append_cancel_right split
  exact ⟨frames, leads.data_eq_visible ▸ reaches⟩

end Inlay.Scope
