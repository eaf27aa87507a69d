import Inlay.Extraction.Basic
import Inlay.Proofs.Basic
import Inlay.Proofs.Directive.Short
import Inlay.Proofs.Scope.Run

/-!
Runs that write about what happens. A run follows the walk up to the first event that has a number
with too many digits, which is still an event of the run and its error.
-/

namespace Inlay

namespace Traced

variable {ε α : Type} {text : Text} {fault : ε} {event : Event} {events : List Event}
  {outcome : Except ε α} {traced : Traced ε α}

theorem mapError_after {ζ : Type} (f : ε → ζ) :
    (traced.after event).mapError f = (traced.mapError f).after event := rfl

theorem written_cons_of_isShort (short : event.isShort text) :
    written text fault ⟨event :: events, outcome⟩ =
      (written text fault ⟨events, outcome⟩).after event :=
  if_pos short

theorem written_cons_of_long (long : ¬event.isShort text) :
    written text fault ⟨event :: events, outcome⟩ = ⟨[event], .error fault⟩ :=
  if_neg long

theorem written_eq_self (short : ∀ event ∈ traced.events, event.isShort text) :
    traced.written text fault = traced := by
  obtain ⟨events, outcome⟩ := traced
  induction events with
  | nil => rfl
  | cons event events induction =>
      obtain ⟨shortFirst, shortRest⟩ := List.forall_mem_cons.mp short
      rw [written_cons_of_isShort shortFirst, induction shortRest]
      rfl

theorem isPrefix_events_written : (traced.written text fault).events <+: traced.events := by
  obtain ⟨events, outcome⟩ := traced
  induction events with
  | nil => exact List.prefix_refl _
  | cons event events induction =>
      by_cases short : event.isShort text
      · rw [written_cons_of_isShort short]
        exact List.cons_prefix_cons.mpr ⟨rfl, induction⟩
      · rw [written_cons_of_long short]
        exact List.prefix_append [event] events

theorem outcome_written_of_long (member : event ∈ traced.events)
    (long : ¬event.isShort text) :
    (traced.written text fault).outcome = .error fault := by
  obtain ⟨events, outcome⟩ := traced
  induction events with
  | nil => contradiction
  | cons first events induction =>
      by_cases short : first.isShort text
      · rw [written_cons_of_isShort short]
        rcases List.mem_cons.mp member with rfl | later
        · exact absurd short long
        · exact induction later
      · rw [written_cons_of_long short]

theorem written_map {ζ : Type} {text' : Text} {fault' : ζ} {f : Event → Event}
    {g : Except ε α → Except ζ α} (failed : g (.error fault) = .error fault')
    (same : ∀ event ∈ traced.events, (f event).isShort text' = event.isShort text) :
    written text' fault' ⟨traced.events.map f, g traced.outcome⟩ =
      ⟨(traced.written text fault).events.map f, g (traced.written text fault).outcome⟩ := by
  obtain ⟨events, outcome⟩ := traced
  induction events with
  | nil => rfl
  | cons event events induction =>
      obtain ⟨sameFirst, sameRest⟩ := List.forall_mem_cons.mp same
      rw [List.map_cons]
      by_cases short : event.isShort text
      · rw [written_cons_of_isShort short, written_cons_of_isShort (sameFirst.trans short)]
        exact congrArg (after (f event)) (induction sameRest)
      · have shortMoved : ¬(f event).isShort text' := by rwa [sameFirst]
        rw [written_cons_of_long short, written_cons_of_long shortMoved]
        exact congrArg _ failed.symm

end Traced

theorem Extraction.Error.ofScope_ne_digits (text : Text) (fault : Scope.Fault) :
    ofScope text fault ≠ digits := by
  rw [ofScope, locate]
  cases Position.ofOffset text fault.offset <;> simp

structure Directive.InText (text : Text) (directive : Directive) : Prop where
  start : 0 ≤ directive.start ∧ directive.start ≤ text.length
  stop : 0 ≤ directive.stop ∧ directive.stop ≤ text.length

/-- The numbers of a directive are short, if they are not indices of the text. -/
structure Directive.IsShort (text : Text) (directive : Directive) : Prop where
  start : text.isShortOffset directive.start
  stop : text.isShortOffset directive.stop
  command : directive.command.isShort

theorem Directive.IsShort.update {text : Text} {directive : Directive}
    (short : directive.IsShort text) {data : Fields} (shortData : data.isShort) :
    (directive.update data).isShort := by
  have shortCommand := short.command
  rw [Directive.update]
  generalize directive.command = command at shortCommand
  cases command with
  | assign fields => exact Fields.isShort_overlay shortData shortCommand
  | merge fields => exact Fields.isShort_merge shortData shortCommand
  | beginBlock | endBlock | emit => exact shortData

namespace Scope

variable {text : Text} {point next : Point}

def Overflows (text : Text) (point : Point) : Prop :=
  ∃ event, Happens point event ∧ ¬event.isShort text

theorem Happens.isShort {event : Event} (happens : Happens point event)
    (fits : ¬Overflows text point) : event.isShort text := by
  by_cases short : event.isShort text
  · exact short
  · exact absurd ⟨event, happens, short⟩ fits

def Continues (text : Text) (point next : Point) : Prop :=
  Step point next ∧ ¬Overflows text point

def RunsTo (text : Text) : Point → Point → Prop :=
  Relation.ReflTransGen (Continues text)

/-- The points at which a run is over. -/
inductive Ends (text : Text) : Point → Except Extraction.Error Unit → Prop
  | final {point : Point} {outcome : Except Fault Unit} :
      Final point outcome → ¬Overflows text point →
      Ends text point (outcome.mapError (.ofScope text))
  | overflow {point : Point} : Overflows text point → Ends text point (.error .digits)

def Point.run (text : Text) (point : Point) : Traced Extraction.Error Unit :=
  (point.walk.mapError (.ofScope text)).written text .digits

theorem isPrefix_events_resolve (text : Text) (data : Fields) (directives : List Directive) :
    (resolve text data directives).events <+: (walk data [] directives).events := by
  rw [resolve, ← Traced.events_mapError (Extraction.Error.ofScope text)]
  exact Traced.isPrefix_events_written

theorem Continues.run_eq_after (continues : Continues text point next) :
    ∃ event, Happens point event ∧ point.run text = (next.run text).after event := by
  obtain ⟨step, fits⟩ := continues
  obtain ⟨event, happens, walked⟩ := step.walk_eq_after
  refine ⟨event, happens, ?_⟩
  rw [Point.run, walked, Traced.mapError_after]
  exact Traced.written_cons_of_isShort (happens.isShort fits)

theorem Overflows.run_eq (overflows : Overflows text point) :
    ∃ event, Happens point event ∧ point.run text = ⟨[event], .error .digits⟩ := by
  obtain ⟨event, happens, long⟩ := overflows
  refine ⟨event, happens, ?_⟩
  obtain ⟨rest, walked⟩ := happens.exists_walk_eq_after
  rw [Point.run, walked, Traced.mapError_after]
  exact Traced.written_cons_of_long long

theorem Final.run_eq {outcome : Except Fault Unit} (final : Final point outcome)
    (fits : ¬Overflows text point) : point.run text = point.walk.mapError (.ofScope text) := by
  apply Traced.written_eq_self
  intro event member
  exact ((final.mem_events_walk event).mp member).isShort fits

theorem continues_or_ends (text : Text) (point : Point) :
    (∃ next, Continues text point next) ∨ ∃ outcome, Ends text point outcome := by
  by_cases overflows : Overflows text point
  · exact .inr ⟨_, .overflow overflows⟩
  · rcases step_or_final point with ⟨next, step⟩ | ⟨outcome, final⟩
    · exact .inl ⟨next, step, overflows⟩
    · exact .inr ⟨_, .final final overflows⟩

theorem Ends.not_continues {outcome : Except Extraction.Error Unit}
    (ends : Ends text point outcome) : ¬Continues text point next := by
  rintro ⟨step, fits⟩
  cases ends with
  | final final _ => exact final.not_step step
  | overflow overflows => exact fits overflows

theorem Ends.outcome_run {outcome : Except Extraction.Error Unit}
    (ends : Ends text point outcome) : (point.run text).outcome = outcome := by
  cases ends with
  | final final fits =>
      rw [final.run_eq fits, Traced.outcome_mapError, final.outcome_walk.1]
  | overflow overflows =>
      obtain ⟨event, _, run⟩ := overflows.run_eq
      rw [run]

theorem Ends.regions_run {outcome : Except Extraction.Error Unit}
    (ends : Ends text point outcome) :
    (∃ found, Completes point found ∧ (point.run text).regions = [found]) ∨
      (∀ found, ¬Completes point found) ∧ (point.run text).regions = [] := by
  cases ends with
  | final final fits =>
      refine .inr ⟨fun found => final.not_completes, ?_⟩
      rw [final.run_eq fits, Traced.regions_mapError, final.outcome_walk.2]
  | overflow overflows =>
      obtain ⟨event, happens, run⟩ := overflows.run_eq
      have regions : (point.run text).regions = event.region?.toList := by
        rw [run]
        cases event <;> rfl
      rw [regions]
      cases completed : event.region? with
      | none =>
          refine .inr ⟨fun found completes => ?_, rfl⟩
          cases completed.symm.trans (happens.completes_iff.mp completes)
      | some found => exact .inl ⟨found, happens.completes_iff.mpr completed, rfl⟩

theorem Continues.runsTo_iff {reached : Point} (continues : Continues text point next) :
    RunsTo text point reached ↔ reached = point ∨ RunsTo text next reached := by
  constructor
  · intro runs
    rcases runs.cases_head with rfl | ⟨other, first, later⟩
    · exact .inl rfl
    · exact .inr (first.1.deterministic continues.1 ▸ later)
  · rintro (rfl | later)
    · exact .refl
    · exact later.head continues

theorem Ends.runsTo_iff {reached : Point} {outcome : Except Extraction.Error Unit}
    (ends : Ends text point outcome) : RunsTo text point reached ↔ reached = point := by
  constructor
  · intro runs
    rcases runs.cases_head with rfl | ⟨next, first, _⟩
    · rfl
    · exact absurd first ends.not_continues
  · rintro rfl
    exact .refl

theorem RunsTo.reaches {reached : Point} (runs : RunsTo text point reached) :
    Reaches point reached := by
  induction runs with
  | refl => exact .refl
  | tail _ continues induction => exact induction.tail continues.1

theorem RunsTo.not_overflows {last reached : Point} (runs : RunsTo text point last)
    (reaches : Reaches point reached) (earlier : last.ahead.length < reached.ahead.length) :
    ¬Overflows text reached := by
  induction runs using Relation.ReflTransGen.head_induction_on with
  | refl => exact absurd reaches.length_le (Nat.not_le.mpr earlier)
  | head continues _ induction =>
      rcases continues.1.reaches_iff.mp reaches with rfl | later
      · exact continues.2
      · exact induction later

theorem Point.run_eq_walk (fits : ∀ reached, Reaches point reached → ¬Overflows text reached) :
    point.run text = point.walk.mapError (.ofScope text) := by
  apply Traced.written_eq_self
  intro event member
  obtain ⟨reached, reaches, happens⟩ := (mem_events_walk_iff point event).mp member
  exact happens.isShort (fits reached reaches)

theorem Point.outcome_run_eq_digits_iff (text : Text) (point : Point) :
    (point.run text).outcome = .error .digits ↔
      ∃ reached, Reaches point reached ∧ Overflows text reached := by
  constructor
  · intro failed
    by_cases overflow : ∃ reached, Reaches point reached ∧ Overflows text reached
    · exact overflow
    · have fits (reached : Point) (reaches : Reaches point reached) : ¬Overflows text reached :=
        fun overflows => overflow ⟨reached, reaches, overflows⟩
      rw [run_eq_walk fits] at failed
      obtain ⟨fault, _, isDigits⟩ := mapError_eq_error_iff.mp failed
      exact absurd isDigits (Extraction.Error.ofScope_ne_digits text fault)
  · rintro ⟨reached, reaches, event, happens, long⟩
    have member := (mem_events_walk_iff point event).mpr ⟨reached, reaches, happens⟩
    exact Traced.outcome_written_of_long member long

/-- The directives give a message about a number with too many digits, if the walk gets so far: data
after an update, a region, or the end at which the walk stops. -/
inductive Overflowing (text : Text) (data : Fields) : List Directive → Prop
  | updating {before rest : List Directive} {directive : Directive} :
      Open before → directive.IsUpdate →
      ¬(directive.update (visible data before)).isShort →
      Overflowing text data (before ++ directive :: rest)
  | emitting {before rest : List Directive} {emitter closer : Directive}
      {arguments : List Value} :
      Open before → emitter.command = .emit arguments → closer.command = .endBlock →
      ¬(Value.allShort arguments ∧ text.isShortOffset emitter.stop ∧
        text.isShortOffset closer.start) →
      Overflowing text data (before ++ emitter :: closer :: rest)
  | stopping {before rest : List Directive} {closer : Directive} :
      Balanced before → closer.command = .endBlock →
      ¬text.isShortOffset closer.start →
      Overflowing text data (before ++ closer :: rest)

theorem overflowing_iff_reaches {data : Fields} {directives : List Directive} :
    Overflowing text data directives ↔
      ∃ reached, Reaches ⟨data, [], directives⟩ reached ∧ Overflows text reached := by
  constructor
  · intro overflowing
    cases overflowing with
    | @updating before rest directive opened isUpdate long =>
        obtain ⟨frames, reaches⟩ := opened.reaches data (directive :: rest)
        refine ⟨_, reaches, ?_⟩
        rcases isUpdate with ⟨fields, isAssign⟩ | ⟨fields, isMerge⟩
        · rw [Directive.update, isAssign] at long
          exact ⟨_, .assigns isAssign, long⟩
        · rw [Directive.update, isMerge] at long
          exact ⟨_, .merges isMerge, long⟩
    | @emitting before rest emitter closer arguments opened isEmit isEnd long =>
        obtain ⟨frames, reaches⟩ := opened.reaches data (emitter :: closer :: rest)
        refine ⟨_, reaches, _, .emits isEmit isEnd, ?_⟩
        simpa [Event.isShort, region, and_assoc] using long
    | stopping balanced isEnd long =>
        exact ⟨_, balanced.reaches data [] _, _, .stops isEnd, long⟩
  · rintro ⟨reached, reaches, event, happens, long⟩
    obtain ⟨passed, rfl, leads⟩ := reaches.leads
    have dataThere := leads.data_eq_visible
    cases happens with
    | opens | closes => exact absurd rfl long
    | stops isEnd =>
        cases leads with
        | root balanced => exact .stopping balanced isEnd long
    | @assigns current fields frames directive rest isAssign =>
        refine .updating leads.isOpen (.inl ⟨fields, isAssign⟩) ?_
        rw [← dataThere, Directive.update, isAssign]
        exact long
    | @merges current fields frames directive rest isMerge =>
        refine .updating leads.isOpen (.inr ⟨fields, isMerge⟩) ?_
        rw [← dataThere, Directive.update, isMerge]
        exact long
    | emits isEmit isEnd =>
        refine .emitting leads.isOpen isEmit isEnd ?_
        simpa [Event.isShort, region, and_assoc] using long

theorem not_overflowing_iff {data : Fields} {directives : List Directive} :
    ¬Overflowing text data directives ↔
      ∀ event ∈ (walk data [] directives).events, event.isShort text := by
  rw [overflowing_iff_reaches]
  constructor
  · intro fits event member
    obtain ⟨reached, reaches, happens⟩ :=
      (mem_events_walk_iff ⟨data, [], directives⟩ event).mp member
    exact happens.isShort fun overflows => fits ⟨reached, reaches, overflows⟩
  · rintro short ⟨reached, reaches, event, happens, long⟩
    exact long (short event
      ((mem_events_walk_iff ⟨data, [], directives⟩ event).mpr ⟨reached, reaches, happens⟩))

theorem isShort_visible {data : Fields} {directives : List Directive} (shortData : data.isShort)
    (short : ∀ directive ∈ directives, directive.IsShort text) :
    (visible data directives).isShort := by
  have shortRemaining : ∀ directive ∈ remaining directives, directive.IsShort text :=
    fun directive member => short directive ((remaining_sublist directives).subset member)
  rw [visible]
  generalize remaining directives = kept at shortRemaining
  induction kept generalizing data with
  | nil => exact shortData
  | cons first rest induction =>
      obtain ⟨shortFirst, shortRest⟩ := List.forall_mem_cons.mp shortRemaining
      exact induction (shortFirst.update shortData) shortRest

theorem not_overflowing {data : Fields} {directives : List Directive} (shortData : data.isShort)
    (short : ∀ directive ∈ directives, directive.IsShort text) :
    ¬Overflowing text data directives := by
  intro overflowing
  cases overflowing with
  | @updating before rest directive _ _ long =>
      obtain ⟨shortBefore, shortRest⟩ := List.forall_mem_append.mp short
      exact long ((shortRest directive List.mem_cons_self).update
        (isShort_visible shortData shortBefore))
  | @emitting before rest emitter closer arguments _ isEmit _ long =>
      have shortEmitter := short emitter (by simp)
      have shortCloser := short closer (by simp)
      have shortArguments : (Command.emit arguments).isShort := isEmit ▸ shortEmitter.command
      exact long ⟨shortArguments, shortEmitter.stop, shortCloser.start⟩
  | @stopping before rest closer _ _ long => exact long (short closer (by simp)).start

theorem isShort_relocate {text' : Text} {move : Int → Int} {data : Fields}
    {directives : List Directive} (inText : ∀ directive ∈ directives, directive.InText text)
    (inText' : ∀ directive ∈ directives, (directive.relocate move).InText text') :
    ∀ event ∈ (walk data [] directives).events,
      (event.relocate move).isShort text' = event.isShort text := by
  intro event member
  obtain ⟨reached, reaches, happens⟩ :=
    (mem_events_walk_iff ⟨data, [], directives⟩ event).mp member
  obtain ⟨passed, rfl, _⟩ := reaches.leads
  cases happens with
  | opens | closes | assigns | merges => rfl
  | @stops data closer rest isEnd =>
      have here := Text.isShortOffset_of_index (inText closer (by simp)).start
      have there : text'.isShortOffset (move closer.start) :=
        Text.isShortOffset_of_index (inText' closer (by simp)).start
      exact there.trans here.symm
  | @emits data frames emitter closer arguments rest isEmit isEnd =>
      have startHere := Text.isShortOffset_of_index (inText emitter (by simp)).stop
      have startThere : text'.isShortOffset (move emitter.stop) :=
        Text.isShortOffset_of_index (inText' emitter (by simp)).stop
      have stopHere := Text.isShortOffset_of_index (inText closer (by simp)).start
      have stopThere : text'.isShortOffset (move closer.start) :=
        Text.isShortOffset_of_index (inText' closer (by simp)).start
      simp [Event.relocate, Region.relocate, region, Event.isShort, startHere, startThere, stopHere,
        stopThere]

end Scope

end Inlay
