import Mathlib.Data.List.Forall2
import Inlay.Proofs.Scope.Written

/-!
The data that a region sees. Of all that comes before it, the complete blocks and regions do not
count, and what remains updates the data in order.
-/

namespace Inlay.Scope

inductive Deletion : List Directive → List Directive → Prop
  | region {before after : List Directive} {emitter closer : Directive} {arguments : List Value} :
      emitter.command = .emit arguments → closer.command = .endBlock →
      Deletion (before ++ ([emitter, closer] ++ after)) (before ++ after)
  | block {before inner after : List Directive} {opener closer : Directive} :
      opener.command = .beginBlock → Balanced inner → closer.command = .endBlock →
      Deletion (before ++ (opener :: inner ++ [closer] ++ after)) (before ++ after)

/-- What is left after deletions, if no end of a block or region is left. -/
def Remains (directives kept : List Directive) : Prop :=
  Relation.ReflTransGen Deletion directives kept ∧
    ∀ directive ∈ kept, directive.command ≠ .endBlock

theorem Deletion.remaining_eq {before after : List Directive} (deletion : Deletion before after) :
    remaining before = remaining after := by
  cases deletion with
  | region isEmit isEnd =>
      rw [remaining, List.foldr_append, List.foldr_append, foldr_absorb_region isEmit isEnd,
        ← List.foldr_append]
      rfl
  | block isBegin balanced isEnd =>
      rw [remaining, List.foldr_append, List.foldr_append,
        foldr_absorb_block isBegin balanced isEnd, ← List.foldr_append]
      rfl

theorem command_ne_endBlock_of_mem_remaining {directives : List Directive} :
    ∀ directive ∈ remaining directives, directive.command ≠ .endBlock := by
  induction directives with
  | nil => nofun
  | cons first rest induction =>
      intro directive member
      rw [remaining, List.foldr_cons] at member
      rw [remaining] at induction
      generalize rest.foldr absorb (0, []) = later at member induction
      obtain ⟨_ | closers, kept⟩ := later
      · by_cases isEnd : first.command = .endBlock
        · rw [absorb_end isEnd] at member
          exact induction directive member
        · rw [absorb_kept isEnd] at member
          rcases List.mem_cons.mp member with rfl | later
          · exact isEnd
          · exact induction directive later
      · rw [absorb_pending] at member
        exact induction directive member

theorem remaining_eq_self {directives : List Directive}
    (noEnd : ∀ directive ∈ directives, directive.command ≠ .endBlock) :
    remaining directives = directives ∧ Settled directives := by
  induction directives with
  | nil => exact ⟨rfl, rfl⟩
  | cons first rest induction =>
      obtain ⟨same, settled⟩ := induction fun directive member =>
        noEnd directive (List.mem_cons_of_mem first member)
      obtain ⟨single, kept⟩ := settled_singleton (noEnd first List.mem_cons_self)
      refine ⟨?_, single.append settled⟩
      rw [← List.singleton_append, remaining_append settled, kept, same]

theorem Deletion.append {directives shorter : List Directive}
    (deletion : Deletion directives shorter) (before after : List Directive) :
    Deletion (before ++ (directives ++ after)) (before ++ (shorter ++ after)) := by
  cases deletion with
  | @region earlier later emitter closer arguments isEmit isEnd =>
      have whole : Deletion ((before ++ earlier) ++ ([emitter, closer] ++ (later ++ after)))
          ((before ++ earlier) ++ (later ++ after)) := .region isEmit isEnd
      simpa only [List.append_assoc] using whole
  | @block earlier inner later opener closer isBegin balanced isEnd =>
      have whole : Deletion ((before ++ earlier) ++
          (opener :: inner ++ [closer] ++ (later ++ after)))
          ((before ++ earlier) ++ (later ++ after)) := .block isBegin balanced isEnd
      simpa only [List.append_assoc] using whole

theorem Balanced.deletions {directives : List Directive} (balanced : Balanced directives)
    (before after : List Directive) :
    Relation.ReflTransGen Deletion (before ++ (directives ++ after))
      (before ++ (remaining directives ++ after)) := by
  induction balanced generalizing after with
  | nil => exact .refl
  | update _ isUpdate induction =>
      obtain ⟨settled, kept⟩ := settled_singleton isUpdate.command_ne_endBlock
      rw [remaining_append settled, kept, List.append_assoc, List.append_assoc]
      exact induction _
  | @region earlier emitter closer arguments _ isEmit isEnd induction =>
      have whole : Deletion (earlier ++ ([emitter, closer] ++ [])) (earlier ++ []) :=
        .region isEmit isEnd
      rw [List.append_nil, List.append_nil] at whole
      rw [whole.remaining_eq]
      exact (induction after).head (whole.append before after)
  | @block earlier inner opener closer _ isBegin balanced isEnd induction _ =>
      have whole : Deletion (earlier ++ (opener :: inner ++ [closer] ++ [])) (earlier ++ []) :=
        .block isBegin balanced isEnd
      rw [List.append_nil, List.append_nil] at whole
      rw [whole.remaining_eq]
      exact (induction after).head (whole.append before after)

theorem Open.deletions {directives : List Directive} (opened : Open directives)
    (after : List Directive) :
    Relation.ReflTransGen Deletion (directives ++ after) (remaining directives ++ after) := by
  induction opened generalizing after with
  | balanced balanced => exact balanced.deletions [] after
  | @begun before inner opener _ isBegin balanced induction =>
      have notEnd : opener.command ≠ .endBlock := by simp [isBegin]
      obtain ⟨single, kept⟩ := settled_singleton notEnd
      rw [List.append_cons, remaining_append balanced.settled, remaining_append single, kept,
        List.append_assoc, List.append_assoc, List.append_assoc, List.append_assoc]
      refine (induction _).trans ?_
      rw [← List.append_assoc, ← List.append_assoc (remaining before)]
      exact balanced.deletions _ after

theorem Open.remains_iff {directives : List Directive} (opened : Open directives)
    (kept : List Directive) : Remains directives kept ↔ kept = remaining directives := by
  constructor
  · rintro ⟨deletions, noEnd⟩
    rw [← (remaining_eq_self noEnd).1]
    clear noEnd
    induction deletions with
    | refl => rfl
    | tail _ deletion induction => rw [← deletion.remaining_eq, induction]
  · rintro rfl
    have deletions := opened.deletions []
    rw [List.append_nil, List.append_nil] at deletions
    exact ⟨deletions, command_ne_endBlock_of_mem_remaining⟩

def Point.followedBy (point : Point) (rest : List Directive) : Point :=
  { point with ahead := point.ahead ++ rest }

theorem Step.followedBy {point next : Point} (step : Step point next) (rest : List Directive) :
    Step (point.followedBy rest) (next.followedBy rest) := by
  cases step with
  | opens isBegin => exact .opens isBegin
  | closes isEnd => exact .closes isEnd
  | updates isUpdate => exact .updates isUpdate
  | emits isEmit isEnd => exact .emits isEmit isEnd

theorem Happens.followedBy {point : Point} {event : Event} (happens : Happens point event)
    (rest : List Directive) : Happens (point.followedBy rest) event := by
  cases happens with
  | opens isBegin => exact .opens isBegin
  | closes isEnd => exact .closes isEnd
  | stops isEnd => exact .stops isEnd
  | assigns isAssign => exact .assigns isAssign
  | merges isMerge => exact .merges isMerge
  | emits isEmit isEnd => exact .emits isEmit isEnd

theorem Happens.ahead_ne_nil {point : Point} {event : Event} (happens : Happens point event) :
    point.ahead ≠ [] := by
  cases happens <;> exact List.cons_ne_nil _ _

theorem Reaches.followedBy {point reached : Point} (reaches : Reaches point reached)
    (rest : List Directive) : Reaches (point.followedBy rest) (reached.followedBy rest) := by
  induction reaches with
  | refl => exact .refl
  | tail _ step induction => exact induction.tail (step.followedBy rest)

theorem Continues.followedBy {text : Text} {point next : Point}
    (continues : Continues text point next) (rest : List Directive) :
    Continues text (point.followedBy rest) (next.followedBy rest) := by
  refine ⟨continues.1.followedBy rest, ?_⟩
  rintro ⟨other, happens', long⟩
  obtain ⟨event, happens, _⟩ := continues.1.walk_eq_after
  obtain rfl := happens'.unique (happens.followedBy rest)
  exact long (happens.isShort continues.2)

theorem RunsTo.followedBy {text : Text} {point reached : Point}
    (runs : RunsTo text point reached) (rest : List Directive) :
    RunsTo text (point.followedBy rest) (reached.followedBy rest) := by
  induction runs with
  | refl => exact .refl
  | tail _ continues induction => exact induction.tail (continues.followedBy rest)

theorem Reaches.runsTo {text : Text} {point reached : Point} (reaches : Reaches point reached)
    (fits : ∀ passed, Reaches point passed → ¬Overflows text passed) :
    RunsTo text point reached := by
  induction reaches with
  | refl => exact .refl
  | tail earlier step induction => exact induction.tail ⟨step, fits _ earlier⟩

/-- The directive at an index emits, and the next one is an end. -/
def EmitsAt (directives : List Directive) (index : Nat) (emitter : Directive)
    (arguments : List Value) (closer : Directive) : Prop :=
  directives[index]? = some emitter ∧ emitter.command = .emit arguments ∧
    directives[index + 1]? = some closer ∧ closer.command = .endBlock

def ReachedAt (text : Text) (data : Fields) (directives : List Directive) (index : Nat) : Prop :=
  ∃ current frames,
    RunsTo text ⟨data, [], directives⟩ ⟨current, frames, directives.drop index⟩

/-- A run comes to an index if what lies in front leaves no more than open blocks and says nothing
that cannot be written. -/
theorem reachedAt_iff_open (text : Text) (data : Fields) (directives : List Directive)
    (index : Nat) :
    ReachedAt text data directives index ↔
      Open (directives.take index) ∧ ¬Overflowing text data (directives.take index) := by
  constructor
  · rintro ⟨current, frames, runs⟩
    obtain ⟨passed, split, leads⟩ := runs.reaches.leads
    obtain rfl : directives.take index = passed :=
      List.append_cancel_right ((List.take_append_drop index directives).trans split)
    refine ⟨leads.isOpen, ?_⟩
    intro overflowing
    obtain ⟨reached, reaches, event, happens, long⟩ := overflowing_iff_reaches.mp overflowing
    have onward := reaches.followedBy (directives.drop index)
    rw [Point.followedBy, List.take_append_drop] at onward
    have earlier : (directives.drop index).length <
        (reached.followedBy (directives.drop index)).ahead.length := by
      rw [Point.followedBy, List.length_append]
      exact Nat.lt_add_of_pos_left (List.length_pos_of_ne_nil happens.ahead_ne_nil)
    exact runs.not_overflows onward earlier ⟨event, happens.followedBy _, long⟩
  · rintro ⟨opened, fits⟩
    obtain ⟨frames, reaches⟩ := opened.reaches data []
    rw [List.append_nil] at reaches
    have runs : RunsTo text ⟨data, [], directives.take index⟩ _ := reaches.runsTo
      fun reached passed overflows =>
        fits (overflowing_iff_reaches.mpr ⟨reached, passed, overflows⟩)
    have whole := runs.followedBy (directives.drop index)
    simp only [Point.followedBy, List.take_append_drop, List.nil_append] at whole
    exact ⟨_, frames, whole⟩

/-- The region of the emitting directive at an index. Its data comes from what remains of the
directives in front. -/
def SeenAt (data : Fields) (directives : List Directive) (index : Nat) (found : Region) : Prop :=
  ∃ emitter arguments closer,
    EmitsAt directives index emitter arguments closer ∧
    (∀ kept, Remains (directives.take index) kept ↔ kept = remaining (directives.take index)) ∧
    found =
      { arguments
        data := visible data (directives.take index)
        padding := emitter.padding
        start := emitter.stop
        stop := closer.start }

theorem Completes.seenAt {data : Fields} {directives : List Directive} {point : Point}
    {found : Region} (completes : Completes point found)
    (reaches : Reaches ⟨data, [], directives⟩ point) :
    SeenAt data directives (directives.length - point.ahead.length) found := by
  obtain ⟨passed, rfl, leads⟩ := reaches.leads
  have index_eq : (passed ++ point.ahead).length - point.ahead.length = passed.length := by simp
  rw [index_eq]
  cases completes with
  | @intro current frames emitter closer arguments rest isEmit isEnd =>
      refine ⟨emitter, arguments, closer, ⟨by simp, isEmit, by simp, isEnd⟩, ?_, ?_⟩
      · rw [List.take_left]
        exact leads.isOpen.remains_iff
      · have current_eq : current = visible data passed := leads.data_eq_visible
        rw [List.take_left, region, current_eq]

theorem EmitsAt.completes {directives : List Directive} {index : Nat} {emitter closer : Directive}
    {arguments : List Value} (emits : EmitsAt directives index emitter arguments closer)
    (data : Fields) (frames : List Frame) :
    Completes ⟨data, frames, directives.drop index⟩ (region emitter arguments data closer) := by
  obtain ⟨found, isEmit, foundNext, isEnd⟩ := emits
  obtain ⟨inside, rfl⟩ := List.getElem?_eq_some_iff.mp found
  obtain ⟨insideNext, rfl⟩ := List.getElem?_eq_some_iff.mp foundNext
  rw [List.drop_eq_getElem_cons inside, List.drop_eq_getElem_cons insideNext]
  exact .intro isEmit isEnd

theorem exists_completing_points (text : Text) (point : Point) :
    ∃ points : List Point,
      points.Pairwise (fun earlier later => later.ahead.length < earlier.ahead.length) ∧
      (∀ reached, reached ∈ points ↔
        RunsTo text point reached ∧ ∃ found, Completes reached found) ∧
      List.Forall₂ (fun reached found => RunsTo text point reached ∧ Completes reached found)
        points (point.run text).regions := by
  rcases continues_or_ends text point with ⟨next, continues⟩ | ⟨outcome, ends⟩
  · have shorter := continues.1.length_lt
    obtain ⟨points, ordered, members, listed⟩ := exists_completing_points text next
    obtain ⟨event, happens, run⟩ := continues.run_eq_after
    have onward : List.Forall₂ (fun reached found => RunsTo text point reached ∧
        Completes reached found) points (next.run text).regions :=
      listed.imp fun reached found ⟨runs, completed⟩ => ⟨runs.head continues, completed⟩
    rw [run, Traced.regions_after]
    cases region : event.region? with
    | none =>
        have notHere : ¬∃ found, Completes point found := by simp [happens.completes_iff, region]
        refine ⟨points, ordered, fun reached => ?_, onward⟩
        rw [members, continues.runsTo_iff, or_and_right, or_iff_right]
        rintro ⟨rfl, here⟩
        exact notHere here
    | some found =>
        have here : Completes point found := happens.completes_iff.mpr region
        refine ⟨point :: points, .cons ?_ ordered, fun reached => ?_, .cons ⟨.refl, here⟩ onward⟩
        · intro later member
          exact Nat.lt_of_le_of_lt ((members later).mp member).1.reaches.length_le shorter
        · rw [List.mem_cons, members, continues.runsTo_iff, or_and_right]
          refine or_congr_left ⟨?_, And.left⟩
          rintro rfl
          exact ⟨rfl, found, here⟩
  · rcases ends.regions_run with ⟨found, here, regions⟩ | ⟨notHere, regions⟩
    · refine ⟨[point], List.pairwise_singleton _ _, fun reached => ?_, ?_⟩
      · rw [List.mem_singleton, ends.runsTo_iff]
        refine ⟨?_, And.left⟩
        rintro rfl
        exact ⟨rfl, found, here⟩
      · rw [regions]
        exact .cons ⟨.refl, here⟩ .nil
    · refine ⟨[], .nil, fun reached => ⟨by rintro ⟨⟩, ?_⟩, ?_⟩
      · rintro ⟨runs, found, completed⟩
        rw [ends.runsTo_iff] at runs
        exact absurd (runs ▸ completed) (notHere found)
      · rw [regions]
        exact .nil
termination_by point.ahead.length

theorem mem_indices_iff {text : Text} {data : Fields} {directives : List Directive}
    {points : List Point}
    (members : ∀ reached, reached ∈ points ↔
      RunsTo text ⟨data, [], directives⟩ reached ∧ ∃ found, Completes reached found)
    (index : Nat) :
    index ∈ points.map (fun point => directives.length - point.ahead.length) ↔
      ReachedAt text data directives index ∧
        ∃ emitter arguments closer, EmitsAt directives index emitter arguments closer := by
  rw [List.mem_map]
  constructor
  · rintro ⟨point, member, rfl⟩
    obtain ⟨runs, found, completes⟩ := (members point).mp member
    obtain ⟨emitter, arguments, closer, emits, _⟩ := completes.seenAt runs.reaches
    refine ⟨⟨point.data, point.frames, ?_⟩, emitter, arguments, closer, emits⟩
    obtain ⟨passed, rfl, _⟩ := runs.reaches.leads
    have ahead_eq : (passed ++ point.ahead).drop
        ((passed ++ point.ahead).length - point.ahead.length) = point.ahead := by simp
    rwa [ahead_eq]
  · rintro ⟨⟨current, frames, runs⟩, emitter, arguments, closer, emits⟩
    refine ⟨_, (members _).mpr ⟨runs, _, emits.completes current frames⟩, ?_⟩
    have inside := (List.getElem?_eq_some_iff.mp emits.1).1
    rw [List.length_drop]
    omega

/-- The regions that one run adds, whatever its outcome: one for each emitting directive that the
run reaches and finds closed at once, in order, with the data that remains visible there. A closed
block leaves no trace in it, and an update of a scope that is still open is part of it. -/
theorem regions_see_open_scopes (resolver : Resolver) :
    (∃ indices appended,
      resolver.resolve.1.regions = resolver.regions ++ appended ∧
      indices.Pairwise (· < ·) ∧
      (∀ index, index ∈ indices ↔
        ReachedAt resolver.text resolver.data resolver.directives index ∧
          ∃ emitter arguments closer,
            EmitsAt resolver.directives index emitter arguments closer) ∧
      List.Forall₂ (SeenAt resolver.data resolver.directives) indices appended) ∧
    (∀ index, ReachedAt resolver.text resolver.data resolver.directives index ↔
      Open (resolver.directives.take index) ∧
        ¬Overflowing resolver.text resolver.data (resolver.directives.take index)) ∧
    (resolver.data.isShort →
      (∀ directive ∈ resolver.directives, directive.IsShort resolver.text) →
      ∀ index, ¬Overflowing resolver.text resolver.data (resolver.directives.take index)) ∧
    (∀ before inner after opener closer, opener.command = .beginBlock → Balanced inner →
      closer.command = .endBlock →
      visible resolver.data (before ++ (opener :: inner ++ [closer] ++ after)) =
        visible resolver.data (before ++ after)) ∧
    ∀ before after directive, directive.IsUpdate → Open after →
      visible resolver.data (before ++ directive :: after) =
        visible (directive.update (visible resolver.data before)) after := by
  refine ⟨?_, reachedAt_iff_open resolver.text resolver.data resolver.directives, ?_, ?_, ?_⟩
  · obtain ⟨points, ordered, members, listed⟩ :=
      exists_completing_points resolver.text ⟨resolver.data, [], resolver.directives⟩
    refine ⟨_, _, rfl, ?_, mem_indices_iff members, ?_⟩
    · rw [List.pairwise_map]
      refine ordered.imp_of_mem ?_
      intro earlier later memberEarlier _ shorter
      have bounded := ((members earlier).mp memberEarlier).1.reaches.length_le
      simp only at bounded
      omega
    · rw [List.forall₂_map_left_iff]
      exact listed.imp fun point found ⟨runs, completes⟩ => completes.seenAt runs.reaches
  · intro shortData short index
    apply not_overflowing shortData
    exact fun directive member => short directive (List.mem_of_mem_take member)
  · intro before inner after opener closer isBegin balanced isEnd
    have deletion : Deletion _ (before ++ after) := .block isBegin balanced isEnd
    rw [visible, deletion.remaining_eq, visible]
  · intro before after directive isUpdate opened
    have notEnd := isUpdate.command_ne_endBlock
    rw [List.append_cons, visible_append opened.settled,
      visible_append (settled_singleton notEnd).1, visible_singleton notEnd]

end Inlay.Scope
