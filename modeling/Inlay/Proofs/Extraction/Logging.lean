import Inlay.Proofs.Extraction.Outcome

/-!
The extraction as a program that writes messages while it runs. At each event it puts a message into
words, compares the level with the verbosity, and hands the message to a backend or not. What has
been written stays when the program fails. If the backend itself does not fail, the program comes to
the outcome of the extraction, and writes the messages about its events that the verbosity admits.
-/

namespace Inlay

structure Entry where
  level : Nat
  message : Text

def Event.entry? (text : Text) (event : Event) : Option Entry :=
  (event.message? text).map fun message => ⟨event.level, message⟩

/-- What takes the messages. It has a state of its own, and may fail with a complaint. -/
structure Backend (σ : Type) where
  debug : Text → σ → Except Text σ

namespace Backend

variable {σ : Type}

def Returns (backend : Backend σ) : Prop :=
  ∀ message state, ∃ next, backend.debug message state = .ok next

def hear (backend : Backend σ) (state : σ) (messages : List Text) : Except Text σ :=
  messages.foldlM (fun state message => backend.debug message state) state

theorem hear_singleton (backend : Backend σ) (state : σ) (message : Text) :
    backend.hear state [message] = backend.debug message state := by
  simp [hear]

theorem hear_append {backend : Backend σ} {state middle : σ} {messages more : List Text}
    (heard : backend.hear state messages = .ok middle) :
    backend.hear state (messages ++ more) = backend.hear middle more := by
  rw [hear] at heard
  rw [hear, List.foldlM_append, heard]
  rfl

end Backend

namespace Logging

open Extraction

structure Setup (σ : Type) where
  verbosity : Int
  backend : Backend σ

structure Journal (σ : Type) where
  entries : List Entry
  state : σ

inductive Failure where
  | extraction (error : Error)
  | backend (complaint : Text)

end Logging

abbrev Logging (σ α : Type) :=
  ReaderT (Logging.Setup σ) (ExceptT Logging.Failure (StateM (Logging.Journal σ))) α

namespace Logging

open Extraction

variable {σ α β : Type}

def call (program : Logging σ α) (setup : Setup σ) (journal : Journal σ) :
    Except Failure α × Journal σ :=
  (((program.run setup).run).run journal).run

def log (message : Text) (level : Nat) : Logging σ Unit := do
  let setup ← read
  if level ≤ setup.verbosity then
    let journal ← get
    match setup.backend.debug message journal.state with
    | .ok state => set (Journal.mk (journal.entries ++ [⟨level, message⟩]) state)
    | .error complaint => throw (.backend complaint)

/-- Writes about an event. Its message is put into words whatever the verbosity. -/
def report (text : Text) (event : Event) : Logging σ Unit :=
  match event.message? text with
  | some message => log message event.level
  | none => throw (.extraction .digits)

def readDirectives (text : Text) : List Occurrence → Logging σ (List Directive)
  | [] => return []
  | occurrence :: rest =>
      match Command.parse occurrence.body with
      | .error fault => throw (.extraction (.locate text occurrence.start (.directive fault)))
      | .ok command => do
          report text (.directive command.kind occurrence.start)
          let more ← readDirectives text rest
          return directive occurrence command :: more

def walk (text : Text) (data : Fields) (frames : List Scope.Frame) (regions : List Region) :
    List Directive → Logging σ (List Region)
  | [] =>
      match frames with
      | [] => return regions
      | frame :: _ => throw (.extraction (.ofScope text ⟨.unclosedScope, frame.opener.start⟩))
  | directive :: rest =>
      match directive.command with
      | .beginBlock => do
          report text (.opened (frames.length + 1))
          walk text data (⟨directive, data⟩ :: frames) regions rest
      | .endBlock =>
          match frames with
          | [] => do
              report text (.stopped directive.start)
              return regions
          | frame :: outer => do
              report text (.closed outer.length)
              walk text frame.outerData outer regions rest
      | .assign fields => do
          report text (.assigned (data.overlay fields))
          walk text (data.overlay fields) frames regions rest
      | .merge fields => do
          report text (.merged (data.merge fields))
          walk text (data.merge fields) frames regions rest
      | .emit arguments =>
          match rest with
          | [] => throw (.extraction (.ofScope text ⟨.unclosedRegion, directive.start⟩))
          | closer :: rest =>
              match closer.command with
              | .endBlock => do
                  let found := Scope.region directive arguments data closer
                  report text (.region found)
                  walk text data frames (regions ++ [found]) rest
              | _ => throw (.extraction (.ofScope text ⟨.directiveInRegion, closer.start⟩))

def extract (matcher : Matcher) (data : Fields) (text : Text) : Logging σ (List Region) := do
  let directives ← readDirectives text (matcher.occurrences text)
  report text (.directives directives.length)
  let regions ← walk text data [] [] directives
  report text (.regions regions.length)
  return regions

def entries (text : Text) (verbosity : Int) (events : List Event) : List Entry :=
  (events.filter fun event => event.level ≤ verbosity).filterMap (Event.entry? text)

theorem entries_append (text : Text) (verbosity : Int) (events more : List Event) :
    entries text verbosity (events ++ more) =
      entries text verbosity events ++ entries text verbosity more := by
  simp [entries]

theorem entries_cons (text : Text) (verbosity : Int) (event : Event) (events : List Event) :
    entries text verbosity (event :: events) =
      entries text verbosity [event] ++ entries text verbosity events :=
  entries_append text verbosity [event] events

/-- The journal goes on with what is written, and the backend has heard it. -/
def Journal.Extends (setup : Setup σ) (journal : Journal σ) (written : List Entry)
    (next : Journal σ) : Prop :=
  next.entries = journal.entries ++ written ∧
    setup.backend.hear journal.state (written.map Entry.message) = .ok next.state

theorem Journal.extends_refl (setup : Setup σ) (journal : Journal σ) :
    journal.Extends setup [] journal :=
  ⟨(List.append_nil _).symm, rfl⟩

theorem Journal.Extends.trans {setup : Setup σ} {journal middle last : Journal σ}
    {written more : List Entry} (first : journal.Extends setup written middle)
    (second : middle.Extends setup more last) :
    journal.Extends setup (written ++ more) last := by
  constructor
  · rw [second.1, first.1, List.append_assoc]
  · rw [List.map_append, Backend.hear_append first.2, second.2]

/-- If the backend returns, a program comes to the outcome of a trace and writes what the verbosity
admits of its events. -/
def Tells (text : Text) (program : Logging σ α) (traced : Traced Error α) : Prop :=
  ∀ (setup : Setup σ) (journal : Journal σ), setup.backend.Returns →
    ∃ next, program.call setup journal = (traced.outcome.mapError .extraction, next) ∧
      journal.Extends setup (entries text setup.verbosity traced.events) next

theorem call_bind (program : Logging σ α) (next : α → Logging σ β) (setup : Setup σ)
    (journal : Journal σ) :
    (program >>= next).call setup journal =
      match program.call setup journal with
      | (.ok value, written) => (next value).call setup written
      | (.error failure, written) => (.error failure, written) := by
  change (ExceptT.bindCont (fun value => (next value).run setup)
    (program.call setup journal).1).run (program.call setup journal).2 = _
  rcases program.call setup journal with ⟨outcome, written⟩
  cases outcome with
  | ok value => rfl
  | error failure => rfl

theorem call_read (setup : Setup σ) (journal : Journal σ) :
    (read : Logging σ (Setup σ)).call setup journal = (.ok setup, journal) := rfl

theorem call_get (setup : Setup σ) (journal : Journal σ) :
    (get : Logging σ (Journal σ)).call setup journal = (.ok journal, journal) := rfl

theorem call_log_of_le {setup : Setup σ} {message : Text} {level : Nat}
    (admitted : level ≤ setup.verbosity) {journal : Journal σ} {state : σ}
    (returned : setup.backend.debug message journal.state = .ok state) :
    (log message level).call setup journal =
      (.ok (), ⟨journal.entries ++ [⟨level, message⟩], state⟩) := by
  simp only [log, call_bind, call_read, if_pos admitted, call_get, returned]
  rfl

theorem call_log_of_lt {setup : Setup σ} {message : Text} {level : Nat}
    (suppressed : ¬level ≤ setup.verbosity) (journal : Journal σ) :
    (log message level).call setup journal = (.ok (), journal) := by
  simp only [log, call_bind, call_read, if_neg suppressed]
  rfl

theorem tells_pure (text : Text) (value : α) : Tells text (pure value : Logging σ α) (.ok value) :=
  fun setup journal _ => ⟨journal, rfl, journal.extends_refl setup⟩

theorem tells_throw (text : Text) (error : Error) :
    Tells text (throw (.extraction error) : Logging σ α) (.fail error) :=
  fun setup journal _ => ⟨journal, rfl, journal.extends_refl setup⟩

theorem tells_report {text : Text} {event : Event} (short : event.isShort text) :
    Tells text (report text event : Logging σ Unit) ((Traced.ok ()).after event) := by
  intro setup journal returns
  have message : event.message? text = some event.wording := if_pos short
  simp only [report, message]
  by_cases admitted : event.level ≤ setup.verbosity
  · obtain ⟨state, returned⟩ := returns event.wording journal.state
    have written : entries text setup.verbosity [event] = [⟨event.level, event.wording⟩] := by
      simp [entries, admitted, Event.entry?, message]
    refine ⟨_, call_log_of_le admitted returned, ?_⟩
    rw [Traced.events_after, entries_cons, written]
    exact ⟨rfl, (Backend.hear_singleton ..).trans returned⟩
  · have suppressed : entries text setup.verbosity [event] = [] := by simp [entries, admitted]
    refine ⟨journal, call_log_of_lt admitted journal, ?_⟩
    rw [Traced.events_after, entries_cons, suppressed]
    exact journal.extends_refl setup

theorem Tells.andThen {text : Text} {program : Logging σ α} {next : α → Logging σ β}
    {traced : Traced Error α} {onward : α → Traced Error β} (tells : program.Tells text traced)
    (goesOn : ∀ value, (next value).Tells text (onward value)) :
    Tells text (program >>= next) (traced.andThen onward) := by
  intro setup journal returns
  obtain ⟨middle, called, written⟩ := tells setup journal returns
  rw [call_bind, called, Traced.andThen]
  cases traced.outcome with
  | error error => exact ⟨middle, rfl, written⟩
  | ok value =>
      obtain ⟨last, calledNext, writtenNext⟩ := goesOn value setup middle returns
      refine ⟨last, calledNext, ?_⟩
      rw [entries_append]
      exact written.trans writtenNext

theorem Tells.map {text : Text} {program : Logging σ α} {traced : Traced Error α}
    (tells : program.Tells text traced) (f : α → β) :
    Tells text (do let value ← program; return f value) (traced.map f) := by
  intro setup journal returns
  obtain ⟨next, called, written⟩ := tells setup journal returns
  refine ⟨next, ?_, written⟩
  rw [call_bind, called, Traced.outcome_map]
  cases traced.outcome with
  | error error => rfl
  | ok value => rfl

theorem Tells.after {text : Text} {program : Logging σ α} {traced : Traced Error α}
    (tells : program.Tells text traced) {event : Event} (short : event.isShort text) :
    Tells text (do report text event; program) (traced.after event) :=
  (tells_report short).andThen fun _ => tells

theorem tells_cut {text : Text} {event : Event} (long : ¬event.isShort text)
    (program : Logging σ α) :
    Tells text (do report text event; program) ⟨[event], .error .digits⟩ := by
  have message : event.message? text = none := if_neg long
  intro setup journal _
  have unwritten : entries text setup.verbosity [event] = [] := by
    by_cases admitted : event.level ≤ setup.verbosity <;>
      simp [entries, admitted, Event.entry?, message]
  refine ⟨journal, ?_, ?_⟩
  · rw [call_bind, report, message]
    rfl
  · rw [unwritten]
    exact journal.extends_refl setup

theorem tells_readDirectives {text : Text} {occurrences : List Occurrence}
    (inside : ∀ occurrence ∈ occurrences, occurrence.start ≤ text.length) :
    Tells text (readDirectives text occurrences : Logging σ (List Directive))
      (Extraction.readDirectives text occurrences) := by
  induction occurrences with
  | nil => exact tells_pure text []
  | cons occurrence rest induction =>
      obtain ⟨insideFirst, insideRest⟩ := List.forall_mem_cons.mp inside
      rw [readDirectives, Extraction.readDirectives]
      cases Command.parse occurrence.body with
      | error fault => exact tells_throw text _
      | ok command =>
          apply ((induction insideRest).map _).after
          exact Text.isShortOffset_of_index (by omega)

/-- What a walk comes to that starts with completed regions. -/
def walked (text : Text) (regions : List Region) (traced : Traced Scope.Fault Unit) :
    Traced Error (List Region) :=
  let run := (traced.mapError (.ofScope text)).written text .digits
  run.map fun _ => regions ++ run.regions

theorem walked_ok (text : Text) (regions : List Region) :
    walked text regions (.ok ()) = .ok regions :=
  congrArg Traced.ok (List.append_nil regions)

theorem walked_after {text : Text} {event : Event} (short : event.isShort text)
    (regions : List Region) (traced : Traced Scope.Fault Unit) :
    walked text regions (traced.after event) =
      (walked text (regions ++ event.region?.toList) traced).after event := by
  have written : ((traced.after event).mapError (Error.ofScope text)).written text .digits =
      ((traced.mapError (Error.ofScope text)).written text .digits).after event :=
    Traced.written_cons_of_isShort short
  simp only [walked, written, Traced.regions_after, List.append_assoc]
  rfl

theorem walked_after_of_long {text : Text} {event : Event} (long : ¬event.isShort text)
    (regions : List Region) (traced : Traced Scope.Fault Unit) :
    walked text regions (traced.after event) = ⟨[event], .error .digits⟩ := by
  have cut : ((traced.after event).mapError (Error.ofScope text)).written text .digits =
      ⟨[event], .error .digits⟩ :=
    Traced.written_cons_of_long long
  simp only [walked, cut]
  rfl

theorem Tells.walked_after {text : Text} {program : Logging σ (List Region)}
    {regions : List Region} {event : Event} {traced : Traced Scope.Fault Unit}
    (tells : program.Tells text (walked text (regions ++ event.region?.toList) traced)) :
    Tells text (do report text event; program) (walked text regions (traced.after event)) := by
  by_cases short : event.isShort text
  · rw [Logging.walked_after short]
    exact tells.after short
  · rw [walked_after_of_long short]
    exact tells_cut short program

theorem Tells.walked_after_other {text : Text} {program : Logging σ (List Region)}
    {regions : List Region} {traced : Traced Scope.Fault Unit}
    (tells : program.Tells text (walked text regions traced)) {event : Event}
    (other : event.region? = none) :
    Tells text (do report text event; program) (walked text regions (traced.after event)) := by
  apply Tells.walked_after
  rwa [other, Option.toList_none, List.append_nil]

theorem tells_walk (text : Text) (data : Fields) (frames : List Scope.Frame)
    (regions : List Region) (directives : List Directive) :
    Tells text (walk text data frames regions directives : Logging σ (List Region))
      (walked text regions (Scope.walk data frames directives)) := by
  fun_induction Scope.walk data frames directives generalizing regions with
  | case1 data =>
      rw [walked_ok]
      exact tells_pure text regions
  | case2 data frame frames => exact tells_throw text _
  | case3 data frames directive rest isBegin induction =>
      rw [walk.eq_def]
      simp only [isBegin]
      exact (induction regions).walked_after_other rfl
  | case4 data directive rest isEnd =>
      rw [walk.eq_def]
      simp only [isEnd]
      apply Tells.walked_after_other _ rfl
      rw [walked_ok]
      exact tells_pure text regions
  | case5 data directive rest isEnd frame outer induction =>
      rw [walk.eq_def]
      simp only [isEnd]
      exact (induction regions).walked_after_other rfl
  | case6 data frames directive rest fields isAssign updated induction =>
      rw [walk.eq_def]
      simp only [isAssign]
      exact (induction regions).walked_after_other rfl
  | case7 data frames directive rest fields isMerge updated induction =>
      rw [walk.eq_def]
      simp only [isMerge]
      exact (induction regions).walked_after_other rfl
  | case8 data frames directive arguments isEmit =>
      rw [walk.eq_def]
      simp only [isEmit]
      exact tells_throw text _
  | case9 data frames directive arguments isEmit closer rest isEnd induction =>
      rw [walk.eq_def]
      simp only [isEmit, isEnd]
      exact (induction _).walked_after
  | case10 data frames directive arguments isEmit closer rest notEnd =>
      rw [walk.eq_def]
      simp only [isEmit]
      exact tells_throw text _

theorem extract_eq_andThen (matcher : Matcher) (data : Fields) (text : Text) :
    Inlay.extract matcher data text =
      (directivesOf matcher text).andThen fun directives =>
        ((regionsOf text data directives).andThen fun regions =>
          (Traced.ok regions).after (.regions regions.length)).after
            (.directives directives.length) := by
  simp only [Inlay.extract, runStages, Stage.run]
  cases read : (directivesOf matcher text).outcome with
  | error error => simp [Traced.andThen, Traced.map, read, Except.map]
  | ok directives =>
      cases found : (regionsOf text data directives).outcome with
      | error error =>
          simp [Traced.andThen, Traced.after, Traced.map, Traced.ok, read, found, Except.map]
      | ok regions =>
          simp [Traced.andThen, Traced.after, Traced.map, Traced.ok, read, found, Except.map]

theorem tells_extract (matcher : Matcher) (data : Fields) (text : Text) :
    Tells text (extract matcher data text : Logging σ (List Region))
      (Inlay.extract matcher data text) := by
  have inside : ∀ occurrence ∈ matcher.occurrences text, occurrence.start ≤ text.length := by
    intro occurrence member
    have stands := Matcher.standsIn_of_mem_occurrences member
    have ordered := stands.start_lt_stop
    have within := stands.stop_le_length
    omega
  rw [extract_eq_andThen]
  apply (tells_readDirectives inside).andThen
  intro directives
  apply Tells.after _ rfl
  apply (tells_walk text data [] [] directives).andThen
  intro regions
  exact (tells_pure text regions).after rfl

end Logging
end Inlay
