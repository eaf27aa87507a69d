import Inlay.Proofs.Injection.RoundTrip

/-!
The directive lines of a text whose regions have been replaced. If the new contents hold no
directive lines, they are the lines of the old text, moved along with the pieces that injection
keeps.
-/

namespace Inlay

def Occurrence.placed (move : Int → Int) (occurrence : Occurrence) : DirectiveLine × Int × Int :=
  (occurrence.toDirectiveLine, move occurrence.start, move occurrence.stop)

namespace Matcher

variable {matcher : Matcher}

theorem occurrencesFrom_eq_nil {text : Text} (quiet : matcher.occurrences text = [])
    (offset : Nat) : matcher.occurrencesFrom true 0 offset text = [] := by
  rw [occurrencesFrom_eq_map, quiet, List.map_nil]

theorem bounds_of_mem_occurrencesFrom {offset : Nat} {text : Text} {occurrence : Occurrence}
    (member : occurrence ∈ matcher.occurrencesFrom true 0 offset text) :
    offset ≤ occurrence.start ∧ occurrence.start < occurrence.stop ∧
      occurrence.stop ≤ offset + text.length := by
  rw [occurrencesFrom_eq_map] at member
  obtain ⟨unmoved, found, rfl⟩ := List.mem_map.mp member
  have stands := standsIn_of_mem_occurrences found
  have extended := stands.start_lt_stop
  have within := stands.stop_le_length
  simp only [Occurrence.stop] at extended within ⊢
  omega

theorem map_placed_occurrencesFrom (base offset : Nat) (text : Text) :
    (matcher.occurrencesFrom true 0 base text).map (Occurrence.placed id) =
      (matcher.occurrencesFrom true 0 offset text).map
        (Occurrence.placed fun place => place + (base - offset)) := by
  rw [occurrencesFrom_eq_map base, occurrencesFrom_eq_map offset, List.map_map, List.map_map]
  apply List.map_congr_left
  intro occurrence _
  simp only [Function.comp_apply, Occurrence.placed, Occurrence.stop, id_eq, Prod.mk.injEq,
    true_and]
  omega

end Matcher

theorem Region.LiesIn.occurrences_slice {matcher : Matcher} {text : Text} {region : Region}
    (lies : region.LiesIn matcher text) (oneLine : matcher.OneLine) :
    matcher.occurrences (text.slice region.start region.stop) = [] := by
  have positive := lies.start_pos
  have ordered := lies.start_lt_stop
  have inside := lies.stop_lt_length
  have whole : text = text.slice 0 region.start ++ text.slice region.start region.stop ++
      text.drop region.stop.toNat := by
    rw [List.append_assoc, Text.slice_append_drop (by omega), Text.slice_append_drop (by omega)]
    rfl
  have leadLength : ((text.slice 0 region.start).length : Int) = region.start - 0 :=
    Text.length_slice (by omega) (by omega) (by omega)
  have contentLength :
      ((text.slice region.start region.stop).length : Int) = region.stop - region.start :=
    Text.length_slice (by omega) (by omega) (by omega)
  have scanned := @Matcher.occurrencesFrom_append_surrounded matcher oneLine 0 _
    lies.head?_slice lies.getLast?_slice (text.slice 0 region.start)
    (text.drop region.stop.toNat)
  rw [← whole] at scanned
  -- An occurrence in the content would be one of the text that lies in the region.
  rw [List.eq_nil_iff_forall_not_mem]
  intro occurrence member
  let placed : Occurrence :=
    { occurrence with start := occurrence.start + (text.slice 0 region.start).length }
  have placedMember : placed ∈ matcher.occurrencesFrom true 0
      (0 + (text.slice 0 region.start).length) (text.slice region.start region.stop) := by
    rw [Nat.zero_add, Matcher.occurrencesFrom_eq_map]
    exact List.mem_map_of_mem member
  have inText : placed ∈ matcher.occurrences text := by
    rw [Matcher.occurrences, scanned]
    exact List.mem_append_left _ (List.mem_append_right _ placedMember)
  have bounds := Matcher.bounds_of_mem_occurrencesFrom placedMember
  have apart := lies.undisturbed placed inText
  omega

namespace Extraction

theorem readsAs_relocate {move : Int → Int} {occurrences moved : List Occurrence}
    {directives : List Directive} (reads : List.Forall₂ ReadsAs occurrences directives)
    (placed : moved.map (Occurrence.placed id) = occurrences.map (Occurrence.placed move)) :
    List.Forall₂ ReadsAs moved (directives.map (Directive.relocate move)) := by
  induction reads generalizing moved with
  | nil =>
      obtain rfl := List.map_eq_nil_iff.mp placed
      exact .nil
  | @cons occurrence _ _ _ readsFirst _ induction =>
      obtain ⟨first, rest, rfl, placedFirst, placedRest⟩ := List.map_eq_cons_iff.mp placed
      refine .cons ?_ (induction placedRest)
      obtain ⟨command, parsed, rfl⟩ := readsFirst
      simp only [Occurrence.placed, id_eq, Prod.mk.injEq] at placedFirst
      obtain ⟨sameLine, sameStart, sameStop⟩ := placedFirst
      refine ⟨command, by rw [sameLine, parsed], ?_⟩
      simp only [directive, Directive.relocate, sameLine, sameStart, sameStop]

end Extraction

namespace Injection

def replace (text : Text) (render : Region → Text) (cursor : Int) (regions : List Region) : Text :=
  splice text cursor (regions.map fun region => (region, render region))

variable {text : Text} {render : Region → Text}

@[simp] theorem replace_nil (cursor : Int) :
    replace text render cursor [] = text.drop cursor.toNat := rfl

theorem replace_cons (cursor : Int) (region : Region) (rest : List Region) :
    replace text render cursor (region :: rest) =
      text.slice cursor region.start ++ (render region).surround ++
        replace text render region.stop rest := rfl

/-- Where an offset of the text comes to lie, unless it lies inside of a region that is replaced. -/
def moved (render : Region → Text) : List Region → Int → Int
  | [], offset => offset
  | region :: rest, offset =>
      if offset ≤ region.start then offset
      else
        moved render rest offset +
          ((render region).surround.length - (region.stop - region.start))

theorem map_placed_occurrencesFrom_replace {matcher : Matcher} (oneLine : matcher.OneLine)
    {regions : List Region} (lies : ∀ region ∈ regions, region.LiesIn matcher text)
    (quiet : ∀ region ∈ regions, matcher.occurrences (render region).surround = [])
    {cursor : Int} {base : Nat} (nonnegative : 0 ≤ cursor) (ordered : InOrder cursor regions) :
    (matcher.occurrencesFrom true 0 base (replace text render cursor regions)).map
        (Occurrence.placed id) =
      (matcher.occurrencesFrom true 0 cursor.toNat (text.drop cursor.toNat)).map
        (Occurrence.placed fun offset => moved render regions offset + (base - cursor)) := by
  induction regions generalizing cursor base with
  | nil =>
      have shifted := @Matcher.map_placed_occurrencesFrom matcher base cursor.toNat
        (text.drop cursor.toNat)
      rw [Int.toNat_of_nonneg nonnegative] at shifted
      exact shifted
  | cons region rest induction =>
      obtain ⟨reached, extended, orderedRest⟩ := ordered
      have liesHere := lies region (List.mem_cons_self ..)
      have positive := liesHere.start_pos
      have inside := liesHere.stop_lt_length
      have whole : text.drop cursor.toNat = text.slice cursor region.start ++
          text.slice region.start region.stop ++ text.drop region.stop.toNat := by
        rw [List.append_assoc, Text.slice_append_drop (by omega),
          Text.slice_append_drop (by omega)]
      have leadLength := @Text.length_slice text _ _ nonnegative reached (by omega)
      have contentLength := @Text.length_slice text region.start region.stop (by omega)
        (by omega) (by omega)
      -- Neither the old nor the new content has occurrences, and both are scanned apart.
      rw [replace_cons, whole,
        Matcher.occurrencesFrom_append_surrounded oneLine (Text.head?_surround _)
          (Text.getLast?_surround _),
        Matcher.occurrencesFrom_append_surrounded oneLine liesHere.head?_slice
          liesHere.getLast?_slice,
        Matcher.occurrencesFrom_eq_nil (quiet region (List.mem_cons_self ..)),
        Matcher.occurrencesFrom_eq_nil (liesHere.occurrences_slice oneLine)]
      simp only [List.append_nil, List.map_append]
      congr 1
      · rw [Matcher.map_placed_occurrencesFrom base cursor.toNat]
        apply List.map_congr_left
        intro occurrence member
        have bounds := Matcher.bounds_of_mem_occurrencesFrom member
        have startsBefore : (occurrence.start : Int) ≤ region.start := by omega
        have stopsBefore : (occurrence.stop : Int) ≤ region.start := by omega
        simp only [Occurrence.placed, moved, if_pos startsBefore, if_pos stopsBefore,
          Int.toNat_of_nonneg nonnegative]
      · have inner := @induction
          (fun later member => lies later (List.mem_cons_of_mem _ member))
          (fun later member => quiet later (List.mem_cons_of_mem _ member)) region.stop
          (base + (text.slice cursor region.start).length + (render region).surround.length)
          (by omega) orderedRest
        have stopAt : cursor.toNat + (text.slice cursor region.start).length +
            (text.slice region.start region.stop).length = region.stop.toNat := by omega
        rw [inner, stopAt]
        apply List.map_congr_left
        intro occurrence member
        have bounds := Matcher.bounds_of_mem_occurrencesFrom member
        have startsAfter : ¬ (occurrence.start : Int) ≤ region.start := by omega
        have stopsAfter : ¬ (occurrence.stop : Int) ≤ region.start := by omega
        simp only [Occurrence.placed, moved, if_neg startsAfter, if_neg stopsAfter,
          Prod.mk.injEq, true_and]
        omega

section

variable {matcher : Matcher} {data : Fields} {regions : List Region}

theorem outcome_directivesOf_replace (oneLine : matcher.OneLine) {directives : List Directive}
    (extracted : (extract matcher data text).outcome = .ok regions)
    (quiet : ∀ region ∈ regions, matcher.occurrences (render region).surround = [])
    (read : (Extraction.directivesOf matcher text).outcome = .ok directives) :
    (Extraction.directivesOf matcher (replace text render 0 regions)).outcome =
      .ok (directives.map (Directive.relocate (moved render regions))) := by
  rw [Extraction.outcome_directivesOf_eq_ok_iff] at read ⊢
  have lies : ∀ region ∈ regions, region.LiesIn matcher text :=
    fun _ member => Region.liesIn_of_mem_extract extracted member
  have placed := @map_placed_occurrencesFrom_replace text render matcher oneLine regions lies
    quiet 0 0 (Int.le_refl 0) (inOrder_of_extract extracted)
  have fromBeginning : (fun offset => moved render regions offset + (((0 : Nat) : Int) - 0)) =
      moved render regions := by
    funext offset
    omega
  rw [fromBeginning] at placed
  exact Extraction.readsAs_relocate read placed

/-- New contents without directive lines move the regions of the text and change nothing else about
them. -/
theorem outcome_extract_replace (oneLine : matcher.OneLine)
    (extracted : (extract matcher data text).outcome = .ok regions)
    (quiet : ∀ region ∈ regions, matcher.occurrences (render region).surround = []) :
    (extract matcher data (replace text render 0 regions)).outcome =
      .ok (regions.map (Region.relocate (moved render regions))) := by
  obtain ⟨directives, read, walked, short, found⟩ := outcome_extract_eq_ok_iff.mp extracted
  have readMoved := outcome_directivesOf_replace oneLine extracted quiet read
  have inText := Extraction.inText_of_readsAs (Extraction.outcome_directivesOf_eq_ok_iff.mp read)
  have inTextMoved :=
    Extraction.inText_of_readsAs (Extraction.outcome_directivesOf_eq_ok_iff.mp readMoved)
  rw [List.forall_mem_map] at inTextMoved
  have same := @Scope.isShort_relocate _ _ _ data _ inText inTextMoved
  have moves : Scope.walk data [] (directives.map (Directive.relocate (moved render regions))) =
      Scope.relocated (moved render regions) (Scope.walk data [] directives) :=
    Scope.walk_relocate (moved render regions) data [] directives
  refine outcome_extract_eq_ok_iff.mpr ⟨_, readMoved, ?_, ?_, ?_⟩
  · rw [moves]
    exact mapError_eq_ok_iff.mpr walked
  · rw [moves]
    refine List.forall_mem_map.mpr fun event member => ?_
    rw [same event member]
    exact short event member
  · rw [moves, Traced.regions, Scope.relocated, Event.filterMap_region?_relocate, ← found,
      Traced.regions]

end

end Injection

end Inlay
