import Inlay.Proofs.Extraction.Logging
import Inlay.Proofs.Scope.Depth
import Inlay.Session.Basic

namespace Inlay

namespace Traced

variable {ε α β : Type}

theorem events_andThen_of_ok {traced : Traced ε α} {value : α}
    (succeeded : traced.outcome = .ok value) (next : α → Traced ε β) :
    (traced.andThen next).events = traced.events ++ (next value).events := by
  simp [andThen, succeeded]

theorem events_andThen_of_error {traced : Traced ε α} {fault : ε}
    (failed : traced.outcome = .error fault) (next : α → Traced ε β) :
    (traced.andThen next).events = traced.events := by
  simp [andThen, failed]

end Traced

namespace Entry

def begins (word : Text) (entry : Entry) : Bool :=
  word.isPrefixOf entry.message

/-- How many directives have been passed with a message, by its first words. -/
def passes (entry : Entry) : Nat :=
  if entry.begins "Region " then 2
  else if entry.begins "Scope " || entry.begins "assign -> " || entry.begins "merge -> " ||
      entry.begins "End at document root " then 1
  else 0

end Entry

namespace Event

def entry (event : Event) : Entry :=
  ⟨event.level, event.wording⟩

theorem passes_entry (event : Event) : event.entry.passes = event.passes := by
  cases event <;> rfl

def directive? : Event → Option (Kind × Int)
  | directive kind offset => some (kind, offset)
  | _ => none

theorem level_le (event : Event) : event.level ≤ 3 := by
  cases event <;> simp [level]

theorem level_ne_one_of_passes {event : Event} (passes : 0 < event.passes) : event.level ≠ 1 := by
  cases event <;> simp_all [level, Event.passes]

theorem directive?_of_passes {event : Event} (passes : 0 < event.passes) :
    event.directive? = none := by
  cases event <;> simp_all [directive?, Event.passes]

theorem depth?_of_passes {event : Event} (passes : event.passes = 0) : event.depth? = none := by
  cases event <;> simp_all [depth?, Event.passes]

theorem filter_entries {α : Type} {word : Text} {pick : Event → Option α} {write : α → Entry}
    (begins : ∀ event, event.entry.begins word = (pick event).isSome)
    (told : ∀ event picked, pick event = some picked → event.entry = write picked)
    (events : List Event) :
    (events.map entry).filter (Entry.begins word) = (events.filterMap pick).map write := by
  induction events with
  | nil => rfl
  | cons event events induction =>
      cases picked : pick event with
      | none =>
          have other : ¬event.entry.begins word := by simp [begins, picked]
          rw [List.map_cons, List.filter_cons_of_neg other, induction,
            List.filterMap_cons_none picked]
      | some value =>
          have found : event.entry.begins word := by simp [begins, picked]
          rw [List.map_cons, List.filter_cons_of_pos found, induction,
            List.filterMap_cons_some picked, List.map_cons, told event value picked]

theorem filter_directive_entries (events : List Event) :
    (events.map entry).filter (Entry.begins "Directive ") =
      (events.filterMap directive?).map fun found =>
        ⟨2, "Directive " ++ found.1.name ++ " at offset " ++ Text.ofInt found.2⟩ := by
  apply filter_entries
  · intro event
    cases event <;> rfl
  · intro event found picked
    cases event with
    | directive kind offset =>
        cases picked
        rfl
    | _ => contradiction

theorem filter_region_entries (events : List Event) :
    (events.map entry).filter (Entry.begins "Region ") =
      (events.filterMap region?).map fun found =>
        ⟨2, "Region " ++ (Value.arr found.arguments).display ++ " at " ++
          Text.ofInt found.start ++ ".." ++ Text.ofInt found.stop⟩ := by
  apply filter_entries
  · intro event
    cases event <;> rfl
  · intro event found picked
    cases event with
    | region found =>
        cases picked
        rfl
    | _ => contradiction

theorem begins_scope (event : Event) :
    event.entry.begins "Scope " = event.depth?.isSome := by
  cases event <;> rfl

end Event

namespace Extraction

def named (directive : Directive) : Event :=
  .directive directive.kind directive.start

theorem events_readDirectives {text : Text} {occurrences : List Occurrence}
    {directives : List Directive}
    (read : (readDirectives text occurrences).outcome = .ok directives) :
    (readDirectives text occurrences).events = directives.map named := by
  induction occurrences generalizing directives with
  | nil =>
      cases read
      rfl
  | cons occurrence rest induction =>
      rw [readDirectives] at read ⊢
      cases parsed : Command.parse occurrence.body with
      | error fault => simp [parsed] at read
      | ok command =>
          simp only [parsed, Traced.outcome_after, Traced.outcome_map] at read
          obtain ⟨more, readMore, rfl⟩ := map_eq_ok_iff.mp read
          exact congrArg (_ :: ·) (induction readMore)

theorem level_of_mem_readDirectives (text : Text) (occurrences : List Occurrence) :
    ∀ event ∈ (readDirectives text occurrences).events, event.level = 2 := by
  induction occurrences with
  | nil => exact List.forall_mem_nil _
  | cons occurrence rest induction =>
      rw [readDirectives]
      cases Command.parse occurrence.body with
      | error fault => exact List.forall_mem_nil _
      | ok command => exact List.forall_mem_cons.mpr ⟨rfl, induction⟩

section Events

variable {matcher : Matcher} {data : Fields} {text : Text} {directives : List Directive}

theorem events_extract_of_read
    (read : (directivesOf matcher text).outcome = .ok directives) :
    (extract matcher data text).events =
      (directivesOf matcher text).events ++ .directives directives.length ::
        ((regionsOf text data directives).andThen fun regions =>
          (Traced.ok regions).after (.regions regions.length)).events := by
  rw [Logging.extract_eq_andThen, Traced.events_andThen_of_ok read, Traced.events_after]

theorem events_extract_of_ok (read : (directivesOf matcher text).outcome = .ok directives)
    (walked : (Scope.walk data [] directives).outcome = .ok ())
    (short : ∀ event ∈ (Scope.walk data [] directives).events, event.isShort text) :
    (extract matcher data text).events =
      directives.map named ++ .directives directives.length ::
        ((Scope.walk data [] directives).events ++
          [.regions (Scope.walk data [] directives).regions.length]) := by
  have found := outcome_regionsOf_eq_ok_iff.mpr ⟨walked, short, rfl⟩
  have events : (regionsOf text data directives).events =
      (Scope.walk data [] directives).events :=
    congrArg Traced.events (Scope.resolve_eq_walk (Scope.not_overflowing_iff.mpr short))
  have reading : (directivesOf matcher text).events = directives.map named :=
    events_readDirectives read
  rw [events_extract_of_read read, Traced.events_andThen_of_ok found, events, reading]
  rfl

theorem level_ne_one_before_end (matcher : Matcher) (data : Fields) (text : Text)
    (directives : List Directive) :
    ∀ event ∈ (directivesOf matcher text).events ++ .directives directives.length ::
      (Scope.walk data [] directives).events, event.level ≠ 1 := by
  intro event member
  rcases List.mem_append.mp member with reading | later
  · rw [level_of_mem_readDirectives _ _ event reading]
    decide
  · rcases List.mem_cons.mp later with rfl | walking
    · simp [Event.level]
    · exact Event.level_ne_one_of_passes (Scope.passes_pos_of_mem_walk walking)

theorem level_ne_one_of_error {error : Error}
    (failed : (extract matcher data text).outcome = .error error) :
    ∀ event ∈ (extract matcher data text).events, event.level ≠ 1 := by
  rw [outcome_extract] at failed
  -- A run that fails stops while it reads or while it walks, in front of the summary.
  cases read : (directivesOf matcher text).outcome with
  | error error =>
      rw [Logging.extract_eq_andThen, Traced.events_andThen_of_error read]
      exact fun event member =>
        level_ne_one_before_end matcher data text [] event (List.mem_append_left _ member)
  | ok directives =>
      rw [read] at failed
      have cut : (regionsOf text data directives).events ⊆
          (Scope.walk data [] directives).events :=
        (Scope.isPrefix_events_resolve text data directives).subset
      rw [events_extract_of_read read, Traced.events_andThen_of_error failed]
      intro event member
      apply level_ne_one_before_end matcher data text directives event
      rcases List.mem_append.mp member with reading | later
      · exact List.mem_append_left _ reading
      · exact List.mem_append_right _ (List.cons_subset_cons _ cut later)

theorem isShort_of_ok (read : (directivesOf matcher text).outcome = .ok directives)
    (walked : (Scope.walk data [] directives).outcome = .ok ())
    (short : ∀ event ∈ (Scope.walk data [] directives).events, event.isShort text) :
    ∀ event ∈ (extract matcher data text).events, event.isShort text := by
  have inText := inText_of_readsAs (outcome_directivesOf_eq_ok_iff.mp read)
  rw [events_extract_of_ok read walked short]
  intro event member
  rcases List.mem_append.mp member with reading | later
  · obtain ⟨directive, given, rfl⟩ := List.mem_map.mp reading
    exact Text.isShortOffset_of_index (inText directive given).start
  · rcases List.mem_cons.mp later with rfl | walking
    · rfl
    · rcases List.mem_append.mp walking with inside | last
      · exact short event inside
      · obtain rfl := List.mem_singleton.mp last
        rfl

end Events

def Counts (directives : List Directive) (events : List Event) : Prop :=
  ∀ before event after, events = before ++ event :: after → event.depth?.isSome →
    Scope.Counted directives before event

theorem Counts.lead {directives : List Directive} {events : List Event}
    (counts : Counts directives events) {lead : List Event}
    (apart : ∀ event ∈ lead, event.passes = 0) : Counts directives (lead ++ events) := by
  induction lead with
  | nil => exact counts
  | cons first lead induction =>
      obtain ⟨firstApart, leadApart⟩ := List.forall_mem_cons.mp apart
      intro before event after split aboutBlock
      cases before with
      | nil =>
          obtain ⟨rfl, _⟩ := List.cons.inj split
          simp [Event.depth?_of_passes firstApart] at aboutBlock
      | cons _ before =>
          obtain ⟨rfl, later⟩ := List.cons.inj split
          have told_eq : Scope.told directives (first :: before) = Scope.told directives before :=
            @Scope.told_cons first [] firstApart directives before
          rw [Scope.Counted, told_eq]
          exact induction leadApart before event after later aboutBlock

theorem Counts.concat {directives : List Directive} {events : List Event}
    (counts : Counts directives events) {last : Event} (apart : last.passes = 0) :
    Counts directives (events ++ [last]) := by
  intro before event after split aboutBlock
  rcases after.eq_nil_or_concat with rfl | ⟨after, final, rfl⟩
  · obtain ⟨_, rfl⟩ := List.append_singleton_inj.mp split
    simp [Event.depth?_of_passes apart] at aboutBlock
  · rw [List.concat_eq_append, ← List.cons_append, ← List.append_assoc] at split
    exact counts before event after (List.append_singleton_inj.mp split).1 aboutBlock

/-- A message about a block, behind others, tells which directive has been passed with it and how
many blocks are open behind that one. -/
def TellsDepth (directives : List Directive) (before : List Entry) (entry : Entry) : Prop :=
  ∃ passed directive rest, directives = passed ++ directive :: rest ∧
    passed.length = (before.map Entry.passes).sum ∧
    let depth := Text.ofNat (Scope.unclosed (passed ++ [directive]))
    (directive.command = .beginBlock ∧ entry = ⟨2, "Scope opened, depth " ++ depth⟩ ∨
      directive.command = .endBlock ∧ entry = ⟨2, "Scope closed, depth " ++ depth⟩)

theorem Counts.tellsDepth {directives : List Directive} {events : List Event}
    (counts : Counts directives events) {before after : List Entry} {entry : Entry}
    (split : events.map Event.entry = before ++ entry :: after)
    (aboutBlock : entry.begins "Scope ") : TellsDepth directives before entry := by
  obtain ⟨earlier, later, rfl, rfl, rest⟩ := List.map_eq_append_iff.mp split
  obtain ⟨event, more, rfl, rfl, _⟩ := List.map_eq_cons_iff.mp rest
  rw [Event.begins_scope] at aboutBlock
  obtain ⟨directive, ahead, shape, counted⟩ := counts earlier event more rfl aboutBlock
  have passes : (earlier.map Event.entry).map Entry.passes = earlier.map Event.passes := by
    rw [List.map_map]
    exact List.map_congr_left fun event _ => event.passes_entry
  refine ⟨Scope.told directives earlier, directive, ahead, shape, ?_, ?_⟩
  · have length := congrArg List.length shape
    rw [List.length_append, List.length_cons] at length
    rw [passes]
    rw [Scope.told, List.length_take] at length ⊢
    omega
  · rcases counted with ⟨isBegin, rfl⟩ | ⟨isEnd, rfl⟩
    · exact .inl ⟨isBegin, rfl⟩
    · exact .inr ⟨isEnd, rfl⟩

/-- The messages of an extraction that found these directives and regions. -/
structure Narrates (directives : List Directive) (regions : List Region) (journal : List Entry) :
    Prop where
  directives_named : journal.filter (Entry.begins "Directive ") =
    directives.map fun directive =>
      ⟨2, "Directive " ++ directive.kind.name ++ " at offset " ++ Text.ofInt directive.start⟩
  regions_named : journal.filter (Entry.begins "Region ") =
    regions.map fun found =>
      ⟨2, "Region " ++ (Value.arr found.arguments).display ++ " at " ++
        Text.ofInt found.start ++ ".." ++ Text.ofInt found.stop⟩
  depths_told : ∀ before entry after, journal = before ++ entry :: after →
    entry.begins "Scope " → TellsDepth directives before entry
  summary : ∃ earlier,
    journal = earlier ++ [⟨1, "Extracted " ++ Text.ofNat regions.length ++ " regions"⟩] ∧
      ∀ entry ∈ earlier, entry.level ≠ 1

theorem narrates_extract {matcher : Matcher} {data : Fields} {text : Text}
    {directives : List Directive} (read : (directivesOf matcher text).outcome = .ok directives)
    (walked : (Scope.walk data [] directives).outcome = .ok ())
    (short : ∀ event ∈ (Scope.walk data [] directives).events, event.isShort text) :
    Narrates directives (Scope.walk data [] directives).regions
      ((extract matcher data text).events.map Event.entry) := by
  have events := @events_extract_of_ok matcher data text directives read walked short
  constructor
  · have names : (directives.map named).filterMap Event.directive? =
        directives.map fun directive => (directive.kind, directive.start) := by
      rw [List.filterMap_map]
      exact congrFun List.filterMap_eq_map directives
    have unnamed : (Scope.walk data [] directives).events.filterMap Event.directive? = [] :=
      List.filterMap_eq_nil_iff.mpr fun event member =>
        Event.directive?_of_passes (Scope.passes_pos_of_mem_walk member)
    rw [Event.filter_directive_entries, events, List.filterMap_append, names,
      List.filterMap_cons_none rfl, List.filterMap_append, unnamed, List.nil_append,
      List.filterMap_cons_none rfl, List.filterMap_nil, List.append_nil, List.map_map]
    rfl
  · have none : (directives.map named).filterMap Event.region? = [] := by
      rw [List.filterMap_map]
      exact List.filterMap_eq_nil_iff.mpr fun directive _ => rfl
    rw [Event.filter_region_entries, events, List.filterMap_append, none, List.nil_append,
      List.filterMap_cons_none rfl, List.filterMap_append, List.filterMap_cons_none rfl,
      List.filterMap_nil, List.append_nil]
    rfl
  · have apart : ∀ event ∈ directives.map named ++ [.directives directives.length],
        event.passes = 0 := by
      intro event member
      rcases List.mem_append.mp member with named | found
      · obtain ⟨directive, _, rfl⟩ := List.mem_map.mp named
        rfl
      · obtain rfl := List.mem_singleton.mp found
        rfl
    have walking : Counts directives (Scope.walk data [] directives).events :=
      fun _ _ _ split aboutBlock => Scope.counted_of_walk split aboutBlock
    rw [events, List.append_cons]
    intro before entry after split aboutBlock
    exact ((walking.concat rfl).lead apart).tellsDepth split aboutBlock
  · have earlier := level_ne_one_before_end matcher data text directives
    rw [show (directivesOf matcher text).events = directives.map named from
      events_readDirectives read] at earlier
    refine ⟨_, ?_, (@List.forall_mem_map _ _ Event.entry _ fun entry => entry.level ≠ 1).mpr
      earlier⟩
    rw [events, ← List.cons_append, ← List.append_assoc, List.map_append]
    rfl

end Extraction

namespace Logging

theorem entries_singleton (text : Text) (verbosity : Int) (event : Event) :
    entries text verbosity [event] =
      if event.level ≤ verbosity then (event.entry? text).toList else [] := by
  by_cases admitted : event.level ≤ verbosity
  · have kept : [event].filter (fun event => event.level ≤ verbosity) = [event] := by
      simp [admitted]
    rw [entries, kept, if_pos admitted]
    cases written : event.entry? text with
    | none => rw [List.filterMap_cons_none written, List.filterMap_nil, Option.toList_none]
    | some entry => rw [List.filterMap_cons_some written, List.filterMap_nil, Option.toList_some]
  · simp [entries, admitted]

theorem map_message_entries {ε α : Type} (text : Text) (verbosity : Int) (traced : Traced ε α) :
    (entries text verbosity traced.events).map Entry.message =
      traced.messages text verbosity := by
  have same : (fun event => (Event.entry? text event).map Entry.message) =
      Event.message? text := by
    funext event
    rw [Event.entry?, Option.map_map]
    cases Event.message? text event <;> rfl
  rw [entries, List.map_filterMap, same, Traced.messages]

theorem entries_three {text : Text} {events : List Event}
    (short : ∀ event ∈ events, event.isShort text) :
    entries text 3 events = events.map Event.entry := by
  induction events with
  | nil => rfl
  | cons event events induction =>
      obtain ⟨shortFirst, shortRest⟩ := List.forall_mem_cons.mp short
      have admitted : (event.level : Int) ≤ 3 := Int.ofNat_le.mpr event.level_le
      have written : event.entry? text = some event.entry := by
        simp [Event.entry?, Event.message?, shortFirst, Event.entry]
      rw [entries_cons, entries_singleton, if_pos admitted, written, induction shortRest]
      rfl

theorem entries_eq_filter (text : Text) (verbosity : Int) (events : List Event) :
    entries text verbosity events =
      (entries text 3 events).filter fun entry => entry.level ≤ verbosity := by
  induction events with
  | nil => rfl
  | cons event events induction =>
      have allAdmitted : (event.level : Int) ≤ 3 := Int.ofNat_le.mpr event.level_le
      rw [entries_cons, entries_cons text 3, List.filter_append, induction, entries_singleton,
        entries_singleton, if_pos allAdmitted]
      congr 1
      by_cases short : event.isShort text <;> by_cases admitted : event.level ≤ verbosity <;>
        simp [Event.entry?, Event.message?, short, admitted]

end Logging

/-- The verbosity of an extraction decides which of its messages are written, and about nothing
else, as long as what takes the messages does not fail. The messages of one that succeeds name the
directives and the regions, follow the open blocks, and end with the only summary; there is none if
the extraction fails. -/
theorem verbosity_filters_messages {σ : Type} {backend : Backend σ} (returns : backend.Returns)
    (state : σ) (matcher : Matcher) (data : Fields) (text : Text) :
    let outcome := (extract matcher data text).outcome
    let run := fun verbosity =>
      (Logging.extract matcher data text).call ⟨verbosity, backend⟩ ⟨[], state⟩
    (∀ verbosity, (run verbosity).1 = (run 0).1 ∧
      (run verbosity).2.entries = (run 3).2.entries.filter fun entry => entry.level ≤ verbosity) ∧
    (∀ verbosity, (run verbosity).1 = outcome.mapError .extraction ∧
      backend.hear state ((run verbosity).2.entries.map Entry.message) =
        .ok (run verbosity).2.state) ∧
    (∀ (session : Session) (source : Session.Source) (next : List Region → Session.Result),
      session.settings.matcher.choose source.tag source.marker = .ok matcher →
      Extraction.initialData source.data = .ok data → source.text = text →
      session.extractFrom source next =
        ((run session.effectiveVerbosity).2.entries.map fun entry => Record.own entry.message,
          match outcome with
          | .error error => .fault (.extraction error)
          | .ok regions => next regions)) ∧
    (∀ regions, (run 3).1 = .ok regions →
      ∃ directives, (Extraction.directivesOf matcher text).outcome = .ok directives ∧
        Extraction.Narrates directives regions (run 3).2.entries) ∧
    ∀ verbosity failure, (run verbosity).1 = .error failure →
      ∀ entry ∈ (run verbosity).2.entries, entry.level ≠ 1 := by
  intro outcome run
  have ran (verbosity : Int) : ∃ next, run verbosity = (outcome.mapError .extraction, next) ∧
      next.entries = Logging.entries text verbosity (extract matcher data text).events ∧
      backend.hear state (next.entries.map Entry.message) = .ok next.state := by
    obtain ⟨next, called, written, heard⟩ :=
      Logging.tells_extract matcher data text ⟨verbosity, backend⟩ ⟨[], state⟩ returns
    rw [List.nil_append] at written
    exact ⟨next, called, written, by rwa [written]⟩
  have outcomes (verbosity : Int) : (run verbosity).1 = outcome.mapError .extraction := by
    obtain ⟨next, called, _⟩ := ran verbosity
    rw [called]
  have journals (verbosity : Int) : (run verbosity).2.entries =
      Logging.entries text verbosity (extract matcher data text).events := by
    obtain ⟨next, called, written, _⟩ := ran verbosity
    rw [called, written]
  refine ⟨fun verbosity => ⟨?_, ?_⟩, fun verbosity => ⟨outcomes verbosity, ?_⟩, ?_, ?_, ?_⟩
  · rw [outcomes, outcomes]
  · rw [journals, journals, Logging.entries_eq_filter]
  · obtain ⟨next, called, _, heard⟩ := ran verbosity
    rw [called, heard]
  · rintro session source next chosen given rfl
    rw [journals, Session.extractFrom, chosen]
    simp only [given]
    rw [Session.recordsOf, ← Logging.map_message_entries, List.map_map]
    rfl
  · intro regions succeeded
    rw [outcomes] at succeeded
    obtain ⟨directives, read, walked, short, rfl⟩ :=
      outcome_extract_eq_ok_iff.mp (mapError_eq_ok_iff.mp succeeded)
    refine ⟨directives, read, ?_⟩
    rw [journals, Logging.entries_three (Extraction.isShort_of_ok read walked short)]
    exact Extraction.narrates_extract read walked short
  · intro verbosity failure failed entry member
    rw [outcomes] at failed
    rw [journals] at member
    obtain ⟨error, failedThere, _⟩ := mapError_eq_error_iff.mp failed
    obtain ⟨event, kept, written⟩ := List.mem_filterMap.mp member
    obtain ⟨message, _, rfl⟩ := Option.map_eq_some_iff.mp written
    exact Extraction.level_ne_one_of_error failedThere event (List.mem_filter.mp kept).1

/-- A backend that keeps what it hears. -/
theorem verbosity_filters_messages_of_recorder :
    let recorder : Backend (List Text) := ⟨fun message heard => .ok (heard ++ [message])⟩
    let text : Text := "// inj:begin\n// inj:emit(null)\n// inj:end\n// inj:end"
    let run := fun verbosity : Int =>
      (Logging.extract .standard [] text).call ⟨verbosity, recorder⟩ ⟨[], []⟩
    recorder.Returns ∧ (∀ verbosity, (run verbosity).1 = .ok [⟨[.null], [], [], 30, 31⟩]) ∧
      (∀ verbosity, (run verbosity).2.entries =
        (run 3).2.entries.filter fun entry => entry.level ≤ verbosity) ∧
      ∃ earlier, (run 3).2.entries = earlier ++ [⟨1, "Extracted 1 regions"⟩] := by
  intro recorder text run
  have returns : recorder.Returns := fun _ _ => ⟨_, rfl⟩
  have extracted : (extract .standard [] text).outcome = .ok [⟨[.null], [], [], 30, 31⟩] := by
    simp only [text]
    cbv
  obtain ⟨filtered, outcomes, _, narrated, _⟩ :=
    verbosity_filters_messages returns [] .standard [] text
  -- The terms must agree to the letter: to compare them otherwise, the run is evaluated.
  simp only [run]
  beta_reduce at filtered outcomes narrated
  rw [extracted] at outcomes
  obtain ⟨directives, _, narrates⟩ := narrated _ (outcomes 3).1
  obtain ⟨earlier, summary, _⟩ := narrates.summary
  have one : "Extracted " ++ Text.ofNat 1 ++ " regions" = ("Extracted 1 regions" : Text) := by cbv
  rw [List.length_singleton, one] at summary
  exact ⟨returns, fun verbosity => (outcomes verbosity).1,
    fun verbosity => (filtered verbosity).2, earlier, summary⟩

end Inlay
