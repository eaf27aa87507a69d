import Inlay.Proofs.Extraction.Outcome
import Inlay.Proofs.Basic
import Inlay.Extraction.Basic

/-!
Stages in any order and number. What they leave depends on whether the directives were read, and on
whether regions were looked for after that, but not on how often this was done.
-/

namespace Inlay.Extraction

/-- At some time after the directives were read, regions are looked for. -/
def Stage.FollowUp (stages : List Stage) : Prop :=
  [.directives, .regions].Sublist stages

/-- What a state holds after stages on a text. -/
structure Holds (text : Text) (matcher : Matcher) (data : Fields) (stages : List Stage)
    (state : Extraction) : Prop where
  text_eq : state.text = text
  matcher_eq : state.matcher = matcher
  data_eq : state.data = data
  directives_read : .directives ∈ stages →
    (directivesOf matcher text).outcome = .ok state.directives
  directives_unread : .directives ∉ stages → state.directives = []
  regions_found : Stage.FollowUp stages → (extract matcher data text).outcome = .ok state.regions
  regions_unfound : ¬Stage.FollowUp stages → state.regions = []

inductive Fails (text : Text) (matcher : Matcher) (data : Fields) (stages : List Stage) :
    Error → Prop
  | reading {error : Error} :
      .directives ∈ stages → (directivesOf matcher text).outcome = .error error →
      Fails text matcher data stages error
  | resolving {directives : List Directive} {error : Error} :
      Stage.FollowUp stages → (directivesOf matcher text).outcome = .ok directives →
      (Resolver.resolve { text, directives, data }).2 = .error error →
      Fails text matcher data stages error

namespace Stage

variable {stages : List Stage}

theorem followUp_concat_directives : FollowUp (stages ++ [.directives]) ↔ FollowUp stages := by
  constructor
  · intro followUp
    have reversed := List.Sublist.reverse followUp
    rw [List.reverse_concat] at reversed
    cases reversed with
    | cons _ reversed => exact List.reverse_sublist.mp reversed
  · intro followUp
    exact followUp.trans (List.sublist_append_left ..)

theorem followUp_concat_regions : FollowUp (stages ++ [.regions]) ↔ .directives ∈ stages := by
  rw [← List.singleton_sublist]
  exact @List.append_sublist_append_right _ [.directives] stages [.regions]

end Stage

theorem outcome_run_directives (state : Extraction) :
    (Stage.directives.run state).outcome =
      (directivesOf state.matcher state.text).outcome.map fun directives =>
        { state with directives } := by
  cases read : (directivesOf state.matcher state.text).outcome with
  | ok directives => exact Traced.outcome_andThen_of_ok read _
  | error error => exact Traced.outcome_andThen_of_error read _

theorem outcome_run_regions (state : Extraction) :
    (Stage.regions.run state).outcome =
      (regionsOf state.text state.data state.directives).outcome.map fun regions =>
        { state with regions } := by
  cases found : (regionsOf state.text state.data state.directives).outcome with
  | ok regions => exact Traced.outcome_andThen_of_ok found _
  | error error => exact Traced.outcome_andThen_of_error found _

theorem outcome_runStages_cons (state : Extraction) (stage : Stage) (stages : List Stage) :
    (state.runStages (stage :: stages)).outcome =
      match (stage.run state).outcome with
      | .ok next => (next.runStages stages).outcome
      | .error error => .error error := by
  cases first : (stage.run state).outcome with
  | ok next => exact Traced.outcome_andThen_of_ok first _
  | error error => exact Traced.outcome_andThen_of_error first _

theorem outcome_regionsOf (text : Text) (data : Fields) (directives : List Directive) :
    (regionsOf text data directives).outcome =
      (Resolver.resolve { text, directives, data }).2 := rfl

section Steps

variable {text : Text} {matcher : Matcher} {data : Fields} {stages : List Stage}
  {stage : Stage} {state next : Extraction} {error : Error}

theorem Holds.initial (text : Text) (matcher : Matcher) (data : Fields) :
    Holds text matcher data [] { text, matcher, data } where
  text_eq := rfl
  matcher_eq := rfl
  data_eq := rfl
  directives_read := nofun
  directives_unread _ := rfl
  regions_found := nofun
  regions_unfound _ := rfl

theorem Holds.outcome_regionsOf_eq (holds : Holds text matcher data stages state)
    (read : .directives ∈ stages) :
    (regionsOf state.text state.data state.directives).outcome =
      (extract matcher data text).outcome := by
  rw [outcome_extract, holds.directives_read read, holds.text_eq, holds.data_eq]

theorem Holds.run_directives (holds : Holds text matcher data stages state)
    {directives : List Directive}
    (read : (directivesOf matcher text).outcome = .ok directives) :
    Holds text matcher data (stages ++ [.directives]) { state with directives } where
  text_eq := holds.text_eq
  matcher_eq := holds.matcher_eq
  data_eq := holds.data_eq
  directives_read _ := read
  directives_unread unread := absurd List.mem_concat_self unread
  regions_found followUp := holds.regions_found (Stage.followUp_concat_directives.mp followUp)
  regions_unfound noFollowUp :=
    holds.regions_unfound fun followUp => noFollowUp (Stage.followUp_concat_directives.mpr followUp)

theorem Holds.run_regions (holds : Holds text matcher data stages state) {regions : List Region}
    (found : (regionsOf state.text state.data state.directives).outcome = .ok regions) :
    Holds text matcher data (stages ++ [.regions]) { state with regions } where
  text_eq := holds.text_eq
  matcher_eq := holds.matcher_eq
  data_eq := holds.data_eq
  directives_read read := holds.directives_read (by simpa using read)
  directives_unread unread := holds.directives_unread (by simpa using unread)
  regions_found followUp := by
    rw [← holds.outcome_regionsOf_eq (Stage.followUp_concat_regions.mp followUp), found]
  regions_unfound noFollowUp := by
    -- Without directives there are no regions to find.
    rw [Stage.followUp_concat_regions] at noFollowUp
    rw [holds.directives_unread noFollowUp] at found
    exact (Except.ok.inj found).symm

theorem Holds.run (holds : Holds text matcher data stages state)
    (ran : (stage.run state).outcome = .ok next) :
    Holds text matcher data (stages ++ [stage]) next := by
  cases stage with
  | directives =>
      rw [outcome_run_directives] at ran
      obtain ⟨directives, read, rfl⟩ := map_eq_ok_iff.mp ran
      rw [holds.text_eq, holds.matcher_eq] at read
      exact holds.run_directives read
  | regions =>
      rw [outcome_run_regions] at ran
      obtain ⟨regions, found, rfl⟩ := map_eq_ok_iff.mp ran
      exact holds.run_regions found

theorem Holds.run_error (holds : Holds text matcher data stages state)
    (failed : (stage.run state).outcome = .error error) :
    Fails text matcher data (stages ++ [stage]) error := by
  cases stage with
  | directives =>
      rw [outcome_run_directives, map_eq_error_iff, holds.text_eq, holds.matcher_eq] at failed
      exact .reading List.mem_concat_self failed
  | regions =>
      rw [outcome_run_regions, map_eq_error_iff, holds.text_eq, holds.data_eq] at failed
      have read : .directives ∈ stages := by
        apply Decidable.by_contra
        intro unread
        rw [holds.directives_unread unread] at failed
        contradiction
      exact .resolving (Stage.followUp_concat_regions.mpr read) (holds.directives_read read) failed

theorem Fails.append (fails : Fails text matcher data stages error) (more : List Stage) :
    Fails text matcher data (stages ++ more) error := by
  cases fails with
  | reading member unread => exact .reading (List.mem_append_left more member) unread
  | resolving followUp read unresolved =>
      exact .resolving (followUp.trans (List.sublist_append_left stages more)) read unresolved

theorem Fails.unique {other : Error} (fails : Fails text matcher data stages error)
    (fails' : Fails text matcher data stages other) : error = other := by
  cases fails with
  | reading _ unread =>
      cases fails' with
      | reading _ unread' => exact Except.error.inj (unread.symm.trans unread')
      | resolving _ read _ => cases unread.symm.trans read
  | resolving _ read unresolved =>
      cases fails' with
      | reading _ unread => cases read.symm.trans unread
      | resolving _ read' unresolved' =>
          cases read.symm.trans read'
          exact Except.error.inj (unresolved.symm.trans unresolved')

theorem Holds.not_fails (holds : Holds text matcher data stages state) :
    ¬Fails text matcher data stages error := by
  intro fails
  cases fails with
  | reading member unread => cases unread.symm.trans (holds.directives_read member)
  | resolving followUp read unresolved =>
      have extracted := holds.regions_found followUp
      rw [outcome_extract, read] at extracted
      cases unresolved.symm.trans extracted

end Steps

section Runs

variable {text : Text} {matcher : Matcher} {data : Fields} {state final : Extraction}
  {stages passed : List Stage} {error : Error}

theorem Holds.runStages (holds : Holds text matcher data passed state)
    (ran : (state.runStages stages).outcome = .ok final) :
    Holds text matcher data (passed ++ stages) final := by
  -- At each step one more stage has been passed.
  induction stages generalizing passed state with
  | nil =>
      cases ran
      rwa [List.append_nil]
  | cons stage stages induction =>
      rw [outcome_runStages_cons] at ran
      cases first : (stage.run state).outcome with
      | error error => simp [first] at ran
      | ok next =>
          rw [first] at ran
          rw [List.append_cons]
          exact induction (holds.run first) ran

theorem exists_failing_stage (failed : (state.runStages stages).outcome = .error error) :
    ∃ before stage after reached, stages = before ++ stage :: after ∧
      (state.runStages before).outcome = .ok reached ∧
      (stage.run reached).outcome = .error error := by
  induction stages generalizing state with
  | nil => contradiction
  | cons stage stages induction =>
      rw [outcome_runStages_cons] at failed
      cases first : (stage.run state).outcome with
      | error cause =>
          rw [first] at failed
          cases failed
          exact ⟨[], stage, stages, state, rfl, rfl, first⟩
      | ok next =>
          rw [first] at failed
          obtain ⟨before, failing, after, reached, rfl, ran, failed⟩ := induction failed
          refine ⟨stage :: before, failing, after, reached, rfl, ?_, failed⟩
          rw [outcome_runStages_cons, first]
          exact ran

theorem outcome_runStages_eq_error_iff :
    (runStages { text, matcher, data } stages).outcome = .error error ↔
      Fails text matcher data stages error := by
  have fails {error : Error}
      (failed : (runStages { text, matcher, data } stages).outcome = .error error) :
      Fails text matcher data stages error := by
    obtain ⟨before, stage, after, reached, rfl, ran, failed⟩ := exists_failing_stage failed
    have holds := (Holds.initial text matcher data).runStages ran
    rw [List.append_cons]
    exact (holds.run_error failed).append after
  refine ⟨fails, ?_⟩
  intro expected
  -- A sequence that came to its end would hold what cannot be found.
  cases ended : (runStages { text, matcher, data } stages).outcome with
  | ok final => exact absurd expected ((Holds.initial text matcher data).runStages ended).not_fails
  | error other => rw [(fails ended).unique expected]

end Runs

/-! Stages on states in memory. Others may hold the state that a stage is given, so the stage makes
a copy, and writes what it finds into the copy. -/

/-- The state that the next stage is given, and the others that are held. -/
structure Memory where
  others : List Extraction
  given : Extraction

namespace Memory

def states (memory : Memory) : List Extraction :=
  memory.others ++ [memory.given]

def copy (memory : Memory) : Memory :=
  ⟨memory.states, memory.given⟩

/-- Performs one stage, with a resolver of its own if it looks for regions. -/
def perform (memory : Memory) (stage : Stage) : Memory × Except Error Unit :=
  let ⟨others, own⟩ := memory.copy
  match stage with
  | .directives =>
      match (directivesOf own.matcher own.text).outcome with
      | .ok directives => (⟨others, { own with directives }⟩, .ok ())
      | .error error => (⟨others, own⟩, .error error)
  | .regions =>
      let resolver : Resolver :=
        { text := own.text, directives := own.directives, data := own.data }
      match resolver.resolve.2 with
      | .ok regions => (⟨others, { own with regions }⟩, .ok ())
      | .error error => (⟨others, own⟩, .error error)

def performAll (memory : Memory) : List Stage → Memory × Except Error Unit
  | [] => (memory, .ok ())
  | stage :: stages =>
      match memory.perform stage with
      | (next, .ok ()) => next.performAll stages
      | (next, .error error) => (next, .error error)

def result (performed : Memory × Except Error Unit) : Except Error Extraction :=
  performed.2.map fun _ => performed.1.given

theorem others_perform (memory : Memory) (stage : Stage) :
    (memory.perform stage).1.others = memory.states := by
  cases stage with
  | directives =>
      simp only [perform, copy]
      split <;> rfl
  | regions =>
      simp only [perform, copy]
      split <;> rfl

theorem result_perform (memory : Memory) (stage : Stage) :
    result (memory.perform stage) = (stage.run memory.given).outcome := by
  cases stage with
  | directives =>
      rw [outcome_run_directives]
      simp only [perform, copy]
      split
      · next read => rw [read]; rfl
      · next unread => rw [unread]; rfl
  | regions =>
      rw [outcome_run_regions, outcome_regionsOf]
      simp only [perform, copy]
      split
      · next resolved => rw [resolved]; rfl
      · next unresolved => rw [unresolved]; rfl

theorem performAll_spec (memory : Memory) (stages : List Stage) :
    memory.states <+: (memory.performAll stages).1.states ∧
      result (memory.performAll stages) = (memory.given.runStages stages).outcome := by
  induction stages generalizing memory with
  | nil => exact ⟨List.prefix_rfl, rfl⟩
  | cons stage stages induction =>
      have kept := memory.others_perform stage
      have first := memory.result_perform stage
      rw [performAll, outcome_runStages_cons, ← first]
      generalize memory.perform stage = performed at kept
      obtain ⟨next, outcome⟩ := performed
      have extended : memory.states <+: next.states := by
        rw [← kept]
        exact List.prefix_append ..
      cases outcome with
      | ok => exact ⟨extended.trans (induction next).1, (induction next).2⟩
      | error error => exact ⟨extended, rfl⟩

end Memory

/-- Stages in any sequence leave the text, the matcher and the data alone. If none fails, the state
holds what the stages of the sequence stand for, and else the error is that of the first one that
fails. In memory, the state from which they start and all others stay as they are. -/
theorem runStages_in_any_order (text : Text) (matcher : Matcher) (data : Fields)
    (stages : List Stage) :
    let initial : Extraction := { text, matcher, data }
    (∀ final, (initial.runStages stages).outcome = .ok final →
      Holds text matcher data stages final) ∧
    (∀ error, (initial.runStages stages).outcome = .error error ↔
      Fails text matcher data stages error) ∧
    (∀ error, (initial.runStages stages).outcome = .error error →
      ∃ before stage after reached, stages = before ++ stage :: after ∧
        (initial.runStages before).outcome = .ok reached ∧
        (stage.run reached).outcome = .error error) ∧
    ∀ others : List Extraction,
      let performed := Memory.performAll ⟨others, initial⟩ stages
      others ++ [initial] <+: performed.1.states ∧
        Memory.result performed = (initial.runStages stages).outcome := by
  intro initial
  refine ⟨?_, fun _ => outcome_runStages_eq_error_iff, fun _ => exists_failing_stage, ?_⟩
  · intro final ran
    exact (Holds.initial text matcher data).runStages ran
  · intro others
    exact Memory.performAll_spec ⟨others, initial⟩ stages

end Inlay.Extraction
