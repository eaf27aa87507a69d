import Inlay.Proofs.Extraction.Outcome
import Inlay.Proofs.Matcher.Occurrence

namespace Inlay

/-- A region takes up whole lines of the text. Its content begins with the newline that ends the
emitting line and ends with the newline in front of the closing line. -/
structure Region.LiesIn (matcher : Matcher) (text : Text) (region : Region) : Prop where
  start_pos : 0 < region.start
  start_lt_stop : region.start < region.stop
  stop_lt_length : region.stop < text.length
  newline_at_start : text[region.start.toNat]? = some .newline
  newline_before_stop : text[(region.stop - 1).toNat]? = some .newline
  padding_blank : ∀ c ∈ region.padding, c.isBlank = true
  delimited : ∃ (before after : List Occurrence) (emitting closing : Occurrence),
    matcher.occurrences text = before ++ emitting :: closing :: after ∧
    (emitting.stop : Int) = region.start ∧ emitting.padding = region.padding ∧
    Command.parse emitting.body = .ok (.emit region.arguments) ∧
    (closing.start : Int) = region.stop ∧ Command.parse closing.body = .ok .endBlock
  undisturbed : ∀ occurrence ∈ matcher.occurrences text,
    (occurrence.stop : Int) ≤ region.start ∨ region.stop ≤ occurrence.start

namespace Extraction

theorem exists_occurrences_of_readsAs {occurrences : List Occurrence}
    {before after : List Directive} {emitter closer : Directive}
    (reads : List.Forall₂ ReadsAs occurrences (before ++ emitter :: closer :: after)) :
    ∃ (earlier later : List Occurrence) (emitting closing : Occurrence),
      occurrences = earlier ++ emitting :: closing :: later ∧
      ReadsAs emitting emitter ∧ ReadsAs closing closer := by
  have readsRest := List.forall₂_drop_append _ _ _ reads
  obtain ⟨emitting, rest, readsEmitter, readsRest, emittingAt⟩ :=
    List.forall₂_cons_right_iff.mp readsRest
  obtain ⟨closing, later, readsCloser, _, rfl⟩ := List.forall₂_cons_right_iff.mp readsRest
  refine ⟨occurrences.take before.length, later, emitting, closing, ?_, readsEmitter, readsCloser⟩
  rw [← emittingAt, List.take_append_drop]

end Extraction

section

variable {matcher : Matcher} {text : Text} {before after : List Occurrence}
  {emitting closing : Occurrence}

theorem Matcher.stop_lt_start_of_adjacent
    (adjacent : matcher.occurrences text = before ++ emitting :: closing :: after) :
    emitting.stop < closing.start := by
  have ordered := matcher.pairwise_occurrences text
  rw [adjacent] at ordered
  have orderedRest := (List.pairwise_append.mp ordered).2.1
  exact (List.pairwise_cons.mp orderedRest).1 closing (List.mem_cons_self ..)

theorem Matcher.apart_of_adjacent
    (adjacent : matcher.occurrences text = before ++ emitting :: closing :: after)
    {occurrence : Occurrence} (member : occurrence ∈ matcher.occurrences text) :
    occurrence.stop ≤ emitting.stop ∨ closing.start ≤ occurrence.start := by
  have standing {found : Occurrence} (member : found ∈ before ++ emitting :: closing :: after) :
      found.start < found.stop :=
    (standsIn_of_mem_occurrences (adjacent ▸ member)).start_lt_stop
  have ordered := matcher.pairwise_occurrences text
  rw [adjacent] at ordered member
  obtain ⟨_, orderedRest, acrossParts⟩ := List.pairwise_append.mp ordered
  rcases List.mem_append.mp member with earlier | rest
  · have beforeEmitting := acrossParts occurrence earlier emitting (List.mem_cons_self ..)
    have extended := @standing emitting (by simp)
    omega
  · rcases List.mem_cons.mp rest with rfl | fromClosing
    · exact .inl (Nat.le_refl _)
    · rcases List.mem_cons.mp fromClosing with rfl | later
      · exact .inr (Nat.le_refl _)
      · have orderedLater := (List.pairwise_cons.mp orderedRest).2
        have afterClosing := (List.pairwise_cons.mp orderedLater).1 occurrence later
        have extended := @standing closing (by simp)
        omega

end

variable {matcher : Matcher} {data : Fields} {text : Text} {regions : List Region}

theorem Region.liesIn_of_mem_extract
    (extracted : (extract matcher data text).outcome = .ok regions) {found : Region}
    (member : found ∈ regions) : found.LiesIn matcher text := by
  obtain ⟨directives, read, _, _, rfl⟩ := outcome_extract_eq_ok_iff.mp extracted
  obtain ⟨_, _, emitter, closer, arguments, fields, rfl, isEmit, isEnd, rfl⟩ :=
    (Scope.delimits_regions_walk data [] directives).exists_directives member
  obtain ⟨before, after, emitting, closing, adjacent, ⟨_, parsedEmit, rfl⟩,
      ⟨_, parsedEnd, rfl⟩⟩ :=
    Extraction.exists_occurrences_of_readsAs
      (Extraction.outcome_directivesOf_eq_ok_iff.mp read)
  obtain rfl : _ = Command.emit arguments := isEmit
  obtain rfl : _ = Command.endBlock := isEnd
  have emittingStands : emitting.StandsIn matcher text :=
    Matcher.standsIn_of_mem_occurrences (by simp [adjacent])
  have closingStands : closing.StandsIn matcher text :=
    Matcher.standsIn_of_mem_occurrences (by simp [adjacent])
  have ordered := Matcher.stop_lt_start_of_adjacent adjacent
  have emittingExtended := emittingStands.start_lt_stop
  have closingExtended := closingStands.start_lt_stop
  have closingInside := closingStands.stop_le_length
  exact {
    start_pos := by
      change (0 : Int) < (emitting.stop : Int)
      omega
    start_lt_stop := by
      change (emitting.stop : Int) < (closing.start : Int)
      omega
    stop_lt_length := by
      change (closing.start : Int) < (text.length : Int)
      omega
    newline_at_start := by
      change text[(emitting.stop : Int).toNat]? = _
      rw [Int.toNat_natCast]
      exact emittingStands.newline_at_stop (by omega)
    newline_before_stop := by
      change text[((closing.start : Int) - 1).toNat]? = _
      rcases closingStands.lineStart with atBeginning | newline
      · omega
      · rw [← newline]
        congr 1
        omega
    padding_blank := emittingStands.fits.padding_blank
    delimited := ⟨before, after, emitting, closing, adjacent, rfl, rfl, parsedEmit, rfl, parsedEnd⟩
    undisturbed := by
      intro occurrence member
      rcases Matcher.apart_of_adjacent adjacent member with earlier | later
      · exact .inl (Int.ofNat_le.mpr earlier)
      · exact .inr (Int.ofNat_le.mpr later) }

theorem pairwise_regions_of_extract
    (extracted : (extract matcher data text).outcome = .ok regions) :
    regions.Pairwise fun earlier later => earlier.stop < later.start := by
  obtain ⟨directives, read, _, _, rfl⟩ := outcome_extract_eq_ok_iff.mp extracted
  have reads := Extraction.outcome_directivesOf_eq_ok_iff.mp read
  have spans := Extraction.map_span_of_readsAs reads
  have extended : ∀ directive ∈ directives, directive.start < directive.stop := by
    intro directive member
    obtain ⟨occurrence, occurs, command, _, rfl⟩ :=
      Extraction.exists_occurrence_of_readsAs reads member
    exact Int.ofNat_lt.mpr (Matcher.standsIn_of_mem_occurrences occurs).start_lt_stop
  have ordered : directives.Pairwise fun earlier later => earlier.stop < later.start := by
    have spansOrdered :
        (directives.map fun directive => (directive.start, directive.stop)).Pairwise
          fun earlier later => earlier.2 < later.1 := by
      rw [spans, List.pairwise_map]
      exact (matcher.pairwise_occurrences text).imp fun apart => Int.ofNat_lt.mpr apart
    exact List.pairwise_map.mp spansOrdered
  exact (Scope.delimits_regions_walk data [] directives).pairwise extended ordered

/-- The regions of a text lie in it in order, and neither each other nor a directive line touches
their lines. -/
theorem regions_lie_apart (extracted : (extract matcher data text).outcome = .ok regions) :
    (∀ region ∈ regions, region.LiesIn matcher text) ∧
      regions.Pairwise fun earlier later => earlier.stop < later.start :=
  ⟨fun _ member => Region.liesIn_of_mem_extract extracted member,
    pairwise_regions_of_extract extracted⟩

/-- Two regions of a matcher whose lines take up two lines of the text each. -/
theorem regions_lie_apart_of_long_marker :
    let matcher : Matcher := ⟨"/*\n", "inj"⟩
    let text : Text :=
      "\t/*\n inj:emit(true)\nold\n/*\n inj:end\n/*\n inj:emit()\n\n/*\n inj:end"
    let regions : List Region := [⟨[.bool true], [], "\t", 19, 24⟩, ⟨[], [], [], 50, 52⟩]
    (extract matcher [] text).outcome = .ok regions ∧
      (∀ region ∈ regions, region.LiesIn matcher text) ∧
      regions.Pairwise fun earlier later => earlier.stop < later.start :=
  ⟨by cbv, @regions_lie_apart _ [] _ _ (by cbv)⟩

end Inlay
