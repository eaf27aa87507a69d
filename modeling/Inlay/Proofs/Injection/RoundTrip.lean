import Inlay.Injection.Basic
import Inlay.Proofs.Extraction.Span
import Inlay.Proofs.Basic

/-!
Putting back what is there. The pieces of a text that injection keeps and the contents of its
regions make up the whole text, and the content of a region already has the newlines that injection
asks for.
-/

namespace Inlay

namespace Region.LiesIn

variable {matcher : Matcher} {text : Text} {region : Region}

theorem head?_slice (lies : region.LiesIn matcher text) :
    (text.slice region.start region.stop).head? = some .newline := by
  rw [Text.head?_slice (Int.le_of_lt lies.start_pos) lies.start_lt_stop]
  exact lies.newline_at_start

theorem getLast?_slice (lies : region.LiesIn matcher text) :
    (text.slice region.start region.stop).getLast? = some .newline := by
  rw [Text.getLast?_slice (Int.le_of_lt lies.start_pos) lies.start_lt_stop
    (Int.le_of_lt lies.stop_lt_length)]
  exact lies.newline_before_stop

theorem surround_slice (lies : region.LiesIn matcher text) :
    (text.slice region.start region.stop).surround = text.slice region.start region.stop :=
  Text.surround_eq_self lies.head?_slice lies.getLast?_slice

end Region.LiesIn

namespace Injection

/-- Regions that can be replaced one after the other from an offset on. -/
def InOrder (cursor : Int) : List Region → Prop
  | [] => True
  | region :: rest =>
      cursor ≤ region.start ∧ region.start < region.stop ∧ InOrder region.stop rest

theorem inOrder_of_pairwise {cursor : Int} {regions : List Region}
    (reached : ∀ region ∈ regions, cursor ≤ region.start)
    (extended : ∀ region ∈ regions, region.start < region.stop)
    (apart : regions.Pairwise fun earlier later => earlier.stop < later.start) :
    InOrder cursor regions := by
  induction regions generalizing cursor with
  | nil => trivial
  | cons region rest induction =>
      obtain ⟨beforeRest, apartRest⟩ := List.pairwise_cons.mp apart
      refine ⟨reached region (List.mem_cons_self ..), extended region (List.mem_cons_self ..), ?_⟩
      apply induction
      · intro later member
        exact Int.le_of_lt (beforeRest later member)
      · intro later member
        exact extended later (List.mem_cons_of_mem _ member)
      · exact apartRest

theorem inOrder_of_extract {matcher : Matcher} {data : Fields} {text : Text}
    {regions : List Region} (extracted : (extract matcher data text).outcome = .ok regions) :
    InOrder 0 regions := by
  apply inOrder_of_pairwise
  · intro region member
    exact Int.le_of_lt (Region.liesIn_of_mem_extract extracted member).start_pos
  · intro region member
    exact (Region.liesIn_of_mem_extract extracted member).start_lt_stop
  · exact pairwise_regions_of_extract extracted

theorem splice_eq_drop {text : Text} {cursor : Int} {pieces : List (Region × Text)}
    (ordered : InOrder cursor (pieces.map Prod.fst))
    (same : ∀ piece ∈ pieces, piece.2.surround = text.slice piece.1.start piece.1.stop) :
    splice text cursor pieces = text.drop cursor.toNat := by
  induction pieces generalizing cursor with
  | nil => rfl
  | cons piece rest induction =>
      obtain ⟨region, content⟩ := piece
      obtain ⟨reached, extended, orderedRest⟩ := ordered
      have unchanged : content.surround = text.slice region.start region.stop :=
        same _ (List.mem_cons_self ..)
      have unchangedRest := induction orderedRest fun piece member =>
        same piece (List.mem_cons_of_mem _ member)
      calc
        splice text cursor ((region, content) :: rest)
        _ = text.slice cursor region.start ++
              (text.slice region.start region.stop ++ text.drop region.stop.toNat) := by
            rw [splice, unchanged, unchangedRest, List.append_assoc]
        _ = text.slice cursor region.start ++ text.drop region.start.toNat := by
            rw [Text.slice_append_drop (Int.le_of_lt extended)]
        _ = text.drop cursor.toNat := Text.slice_append_drop reached

theorem mapM_zipIdx_eq_ok {ε : Type} {render : Nat → Region → Except ε Text}
    {content : Nat → Region → Text} {regions : List Region} {first : Nat}
    (rendered : ∀ index region, regions[index]? = some region →
      render (first + index) region = .ok (content (first + index) region)) :
    ((regions.zipIdx first).mapM fun (region, index) =>
        (render index region).map fun content => (region, content)) =
      .ok ((regions.zipIdx first).map fun numbered =>
        (numbered.1, content numbered.2 numbered.1)) := by
  induction regions generalizing first with
  | nil => rfl
  | cons region rest induction =>
      have renderedFirst : render first region = .ok (content first region) := rendered 0 region rfl
      have renderedRest := @induction (first + 1) (by
        intro index later found
        have shifted := rendered (index + 1) later (by simpa using found)
        rw [Nat.add_assoc, Nat.add_comm 1]
        exact shifted)
      rw [List.zipIdx_cons, List.mapM_cons, renderedRest]
      simp only [renderedFirst, List.map_cons]
      rfl

theorem fill_eq_ok {ε : Type} {render : Nat → Region → Except ε Text}
    {content : Nat → Region → Text} {text : Text} {regions : List Region}
    (rendered : ∀ index region, regions[index]? = some region →
      render index region = .ok (content index region)) :
    fill render text regions =
      .ok (splice text 0 (regions.zipIdx.map fun numbered =>
        (numbered.1, content numbered.2 numbered.1))) := by
  have pieces := @mapM_zipIdx_eq_ok ε render content regions 0 (by simpa using rendered)
  rw [fill, pieces]
  rfl

end Injection

theorem outcome_inject_eq_fill (matcher : Matcher) (data : Fields) (render : Region → Text)
    (text : Text) :
    (inject matcher data render text).outcome =
      match (extract matcher data text).outcome with
      | .error error => .error error
      | .ok regions => Injection.fill (fun _ region => .ok (render region)) text regions := by
  simp only [inject, Traced.outcome_map]
  cases (extract matcher data text).outcome with
  | error error => rfl
  | ok regions =>
      have filled := @Injection.fill_eq_ok Extraction.Error (fun _ region => .ok (render region))
        (fun _ region => render region) text regions (fun _ _ _ => rfl)
      have pieces : (regions.zipIdx.map fun numbered => (numbered.1, render numbered.1)) =
          regions.map fun region => (region, render region) := by
        change regions.zipIdx.map ((fun region => (region, render region)) ∘ Prod.fst) = _
        rw [← List.map_map, List.zipIdx_map_fst]
      rw [pieces] at filled
      exact filled.symm

section

variable {matcher : Matcher} {data : Fields} {text : Text} {regions : List Region}

theorem Injection.fill_eq_text {ε : Type} {render : Nat → Region → Except ε Text}
    {content : Nat → Region → Text}
    (extracted : (extract matcher data text).outcome = .ok regions)
    (rendered : ∀ index region, regions[index]? = some region →
      render index region = .ok (content index region))
    (same : ∀ index region, regions[index]? = some region →
      (content index region).surround = text.slice region.start region.stop) :
    Injection.fill render text regions = .ok text := by
  rw [Injection.fill_eq_ok rendered, Injection.splice_eq_drop]
  · rfl
  · rw [List.map_map]
    change Injection.InOrder 0 (regions.zipIdx.map Prod.fst)
    rw [List.zipIdx_map_fst]
    exact Injection.inOrder_of_extract extracted
  · intro piece member
    obtain ⟨⟨region, index⟩, found, rfl⟩ := List.mem_map.mp member
    exact same index region (List.mem_zipIdx_iff_getElem?.mp found)

/-- If every region gets its own content back, up to the newlines that injection adds, the text
comes out as it was. The content itself needs no newlines added. A rendering may depend on the
number of the region and may fail elsewhere. -/
theorem inject_round_trip (extracted : (extract matcher data text).outcome = .ok regions) :
    (∀ {ε : Type} (render : Nat → Region → Except ε Text) (content : Nat → Region → Text),
      (∀ index region, regions[index]? = some region →
        render index region = .ok (content index region) ∧
          (content index region).surround = text.slice region.start region.stop) →
      Injection.fill render text regions = .ok text) ∧
    (∀ render : Region → Text,
      (∀ region ∈ regions, (render region).surround = text.slice region.start region.stop) →
      (inject matcher data render text).outcome = .ok text) ∧
    ∀ region ∈ regions,
      (text.slice region.start region.stop).surround = text.slice region.start region.stop := by
  refine ⟨?_, ?_, ?_⟩
  · intro ε render content reproduces
    exact Injection.fill_eq_text extracted
      (fun index region found => (reproduces index region found).1)
      (fun index region found => (reproduces index region found).2)
  · intro render reproduces
    rw [outcome_inject_eq_fill, extracted]
    exact Injection.fill_eq_text extracted (fun _ _ _ => rfl)
      (fun index region found => reproduces region (List.mem_of_getElem? found))
  · intro region member
    exact (Region.liesIn_of_mem_extract extracted member).surround_slice

/-- A marker that starts with a blank, and an empty content. -/
theorem inject_round_trip_of_blank_marker :
    let matcher : Matcher := ⟨" #", "a b"⟩
    let text : Text := "x\n  # a b:emit(\"y\")\n # a b:end\n # a b:end"
    let content (region : Region) : Text := text.slice region.start region.stop
    (extract matcher [] text).outcome = .ok [⟨[.str "y"], [], " ", 19, 20⟩] ∧
      (inject matcher [] content text).outcome = .ok text := by
  intro matcher text content
  have extracted : (extract matcher [] text).outcome = .ok [⟨[.str "y"], [], " ", 19, 20⟩] := by
    simp only [matcher, text]
    cbv
  obtain ⟨_, reproduced, unchanged⟩ := inject_round_trip extracted
  exact ⟨extracted, reproduced content unchanged⟩

end

end Inlay
