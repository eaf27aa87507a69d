import Inlay.Matcher.Basic
import Inlay.Proofs.Injection.Moved

/-!
Injecting again. A rendering that looks only at what is known in a region, and not at where the
region lies, finds the same regions in the text that an earlier injection left.
-/

namespace Inlay

def Region.rendered (render : List Value → Fields → Text → Text) (region : Region) : Text :=
  render region.arguments region.data region.padding

theorem Text.slice_append_middle {lead middle rest : Text} {start stop : Int}
    (startAt : start = lead.length) (stopAt : stop = start + middle.length) :
    Text.slice (lead ++ (middle ++ rest)) start stop = middle := by
  subst startAt stopAt
  have length : ((lead.length : Int) + middle.length).toNat - (lead.length : Int).toNat =
      middle.length := by omega
  rw [Text.slice, length, Int.toNat_natCast, List.drop_left, List.take_left]

namespace Injection

theorem InOrder.start_of_mem {cursor : Int} {regions : List Region}
    (ordered : InOrder cursor regions) {region : Region} (member : region ∈ regions) :
    cursor ≤ region.start ∧ region.start < region.stop := by
  induction regions generalizing cursor with
  | nil => simp at member
  | cons first rest induction =>
      obtain ⟨reached, extended, orderedRest⟩ := ordered
      rcases List.mem_cons.mp member with rfl | later
      · exact ⟨reached, extended⟩
      · have bounds := induction orderedRest later
        omega

theorem moved_eq_self {render : Region → Text} {regions : List Region} {cursor offset : Int}
    (ordered : InOrder cursor regions) (before : offset ≤ cursor) :
    moved render regions offset = offset := by
  cases regions with
  | nil => rfl
  | cons region rest => rw [moved, if_pos (Int.le_trans before ordered.1)]

/-- The regions of the text that injection leaves. What lies at `cursor` comes to lie at `base`. -/
def renewed (render : Region → Text) (base cursor : Int) : List Region → List Region
  | [] => []
  | region :: rest =>
      let start := base + (region.start - cursor)
      let stop := start + (render region).surround.length
      { region with start, stop } :: renewed render stop region.stop rest

theorem map_relocate_moved {render : Region → Text} {regions : List Region} {base cursor : Int}
    (ordered : InOrder cursor regions) :
    regions.map (Region.relocate fun offset => moved render regions offset + (base - cursor)) =
      renewed render base cursor regions := by
  induction regions generalizing base cursor with
  | nil => rfl
  | cons region rest induction =>
      obtain ⟨reached, extended, orderedRest⟩ := ordered
      have stopUnmoved : moved render rest region.stop = region.stop :=
        moved_eq_self orderedRest (Int.le_refl _)
      simp only [List.map_cons, renewed]
      congr 1
      · simp only [Region.relocate, moved, if_pos (Int.le_refl _),
          if_neg (Int.not_le.mpr extended), stopUnmoved, Region.mk.injEq, true_and]
        omega
      · rw [← induction orderedRest]
        apply List.map_congr_left
        intro later member
        obtain ⟨startsLater, stopsLater⟩ := orderedRest.start_of_mem member
        have startsAfter : ¬ later.start ≤ region.start := by omega
        have stopsAfter : ¬ later.stop ≤ region.start := by omega
        simp only [Region.relocate, moved, if_neg startsAfter, if_neg stopsAfter,
          Region.mk.injEq, true_and]
        omega

section

variable {text lead : Text} {render : Region → Text} {regions : List Region}
  {base cursor : Int}

theorem map_slice_renewed (nonnegative : 0 ≤ cursor) (baseAt : base = lead.length)
    (ordered : InOrder cursor regions) (inside : ∀ region ∈ regions, region.stop ≤ text.length) :
    (renewed render base cursor regions).map
        (fun region =>
          (lead ++ replace text render cursor regions).slice region.start region.stop) =
      regions.map fun region => (render region).surround := by
  induction regions generalizing lead base cursor with
  | nil => rfl
  | cons region rest induction =>
      obtain ⟨reached, extended, orderedRest⟩ := ordered
      have insideHere := inside region (List.mem_cons_self ..)
      have kept := @Text.length_slice text cursor region.start nonnegative reached (by omega)
      have shape : lead ++ replace text render cursor (region :: rest) =
          (lead ++ text.slice cursor region.start) ++
            ((render region).surround ++ replace text render region.stop rest) := by
        simp only [replace_cons, List.append_assoc]
      simp only [renewed, List.map_cons, shape]
      congr 1
      · apply Text.slice_append_middle
        · rw [List.length_append]
          omega
        · rfl
      · have inner := @induction
          (lead ++ text.slice cursor region.start ++ (render region).surround)
          (base + (region.start - cursor) + (render region).surround.length) region.stop
          (by omega) (by simp only [List.length_append]; omega) orderedRest
          (fun later member => inside later (List.mem_cons_of_mem _ member))
        simpa only [List.append_assoc] using inner

/-- Replacing regions again is replacing them at once, if their places make no difference to what is
rendered for them. -/
theorem replace_renewed (other : List Value → Fields → Text → Text) (nonnegative : 0 ≤ cursor)
    (baseAt : base = lead.length) (ordered : InOrder cursor regions)
    (inside : ∀ region ∈ regions, region.stop ≤ text.length) :
    replace (lead ++ replace text render cursor regions) (Region.rendered other) base
        (renewed render base cursor regions) =
      replace text (Region.rendered other) cursor regions := by
  induction regions generalizing lead base cursor with
  | nil =>
      simp only [renewed, replace_nil, baseAt, Int.toNat_natCast, List.drop_left]
  | cons region rest induction =>
      obtain ⟨reached, extended, orderedRest⟩ := ordered
      have insideHere := inside region (List.mem_cons_self ..)
      have kept := @Text.length_slice text cursor region.start nonnegative reached (by omega)
      have inner := @induction
        (lead ++ text.slice cursor region.start ++ (render region).surround)
        (base + (region.start - cursor) + (render region).surround.length) region.stop
        (by omega) (by simp only [List.length_append]; omega) orderedRest
        (fun later member => inside later (List.mem_cons_of_mem _ member))
      have shape : lead ++ replace text render cursor (region :: rest) =
          lead ++ (text.slice cursor region.start ++
            ((render region).surround ++ replace text render region.stop rest)) := by
        simp only [replace_cons, List.append_assoc]
      have startAt : base + (region.start - cursor) =
          base + (text.slice cursor region.start).length := by omega
      simp only [List.append_assoc] at inner
      simp only [renewed, shape]
      rw [replace_cons, replace_cons, inner, Text.slice_append_middle baseAt startAt]
      rfl

end

end Injection

section

variable {matcher : Matcher} {data : Fields} {text : Text} {regions : List Region}

theorem outcome_inject_of_extract
    (extracted : (extract matcher data text).outcome = .ok regions) (render : Region → Text) :
    (inject matcher data render text).outcome =
      .ok (Injection.replace text render 0 regions) := by
  simp only [inject, Traced.outcome_map, extracted]
  rfl

theorem exists_extract_of_inject {render : Region → Text} {output : Text}
    (injected : (inject matcher data render text).outcome = .ok output) :
    ∃ regions, (extract matcher data text).outcome = .ok regions ∧
      Injection.replace text render 0 regions = output := by
  cases extracted : (extract matcher data text).outcome with
  | error error =>
      simp only [inject, Traced.outcome_map, extracted] at injected
      contradiction
  | ok regions =>
      rw [outcome_inject_of_extract extracted] at injected
      exact ⟨regions, rfl, Except.ok.inj injected⟩

theorem map_relocate_moved_of_extract
    (extracted : (extract matcher data text).outcome = .ok regions) (render : Region → Text) :
    regions.map (Region.relocate (Injection.moved render regions)) =
      Injection.renewed render 0 0 regions := by
  have relocated := @Injection.map_relocate_moved render regions 0 0
    (Injection.inOrder_of_extract extracted)
  simpa only [Int.sub_self, Int.add_zero] using relocated

end

/-- Injection with a rendering that writes no directive lines leaves the directives of the text and
what is known in its regions as they were. The regions then hold what was rendered for them, and
whatever is injected afterwards comes out as if it were injected into the text at once. -/
theorem regeneration_stable {matcher : Matcher} (oneLine : matcher.OneLine) {data : Fields}
    {text output : Text} {render : List Value → Fields → Text → Text}
    (quiet : ∀ regions, (extract matcher data text).outcome = .ok regions →
      ∀ region ∈ regions, matcher.occurrences (region.rendered render).surround = [])
    (injected : (inject matcher data (Region.rendered render) text).outcome = .ok output) :
    (∃ directives renewed : List Directive,
      (Extraction.directivesOf matcher text).outcome = .ok directives ∧
      (Extraction.directivesOf matcher output).outcome = .ok renewed ∧
      renewed.map (fun directive => (directive.command, directive.padding)) =
        directives.map fun directive => (directive.command, directive.padding)) ∧
    (∃ regions renewed : List Region,
      (extract matcher data text).outcome = .ok regions ∧
      (extract matcher data output).outcome = .ok renewed ∧
      renewed.map (fun region => (region.arguments, region.data, region.padding)) =
        regions.map (fun region => (region.arguments, region.data, region.padding)) ∧
      renewed.map (fun region => output.slice region.start region.stop) =
        regions.map fun region => (region.rendered render).surround) ∧
    (∀ other : List Value → Fields → Text → Text,
      (inject matcher data (Region.rendered other) output).outcome =
        (inject matcher data (Region.rendered other) text).outcome) ∧
    (inject matcher data (Region.rendered render) output).outcome = .ok output := by
  obtain ⟨regions, extracted, rfl⟩ := exists_extract_of_inject injected
  obtain ⟨directives, read, _⟩ := outcome_extract_eq_ok_iff.mp extracted
  have quietRegions := quiet regions extracted
  have readAgain :=
    Injection.outcome_directivesOf_replace oneLine extracted quietRegions read
  have extractedAgain := Injection.outcome_extract_replace oneLine extracted quietRegions
  have renewed := map_relocate_moved_of_extract extracted (Region.rendered render)
  have ordered := Injection.inOrder_of_extract extracted
  have inside : ∀ region ∈ regions, region.stop ≤ text.length := by
    intro region member
    exact Int.le_of_lt (Region.liesIn_of_mem_extract extracted member).stop_lt_length
  have injectedAgain (other : List Value → Fields → Text → Text) :
      (inject matcher data (Region.rendered other)
          (Injection.replace text (Region.rendered render) 0 regions)).outcome =
        (inject matcher data (Region.rendered other) text).outcome := by
    rw [outcome_inject_of_extract extractedAgain, outcome_inject_of_extract extracted, renewed]
    exact congrArg Except.ok
      (@Injection.replace_renewed text [] _ regions 0 0 other (Int.le_refl 0) rfl ordered inside)
  refine ⟨⟨directives, _, read, readAgain, ?_⟩, ⟨regions, _, extracted, extractedAgain, ?_, ?_⟩,
    injectedAgain, ?_⟩
  · rw [List.map_map]
    rfl
  · rw [List.map_map]
    rfl
  · rw [renewed]
    exact @Injection.map_slice_renewed text [] _ regions 0 0 (Int.le_refl 0) rfl ordered inside
  · rw [injectedAgain, injected]

/-- A region with data and a padding, replaced by a line that the padding indents. -/
theorem regeneration_stable_of_padding :
    let render (_ : List Value) (_ : Fields) (padding : Text) : Text := padding ++ "// new"
    let assignment : Text := "// inj:assign(\x7b\"a\": null\x7d)\n"
    let text : Text := assignment ++ "\t// inj:emit(true)\nold\n// inj:end"
    let output : Text := assignment ++ "\t// inj:emit(true)\n\t// new\n// inj:end"
    (inject .standard [] (Region.rendered render) text).outcome = .ok output ∧
      (∀ other, (inject .standard [] (Region.rendered other) output).outcome =
        (inject .standard [] (Region.rendered other) text).outcome) ∧
      (inject .standard [] (Region.rendered render) output).outcome = .ok output := by
  intro render assignment text output
  have extracted : (extract .standard [] text).outcome =
      .ok [⟨[.bool true], [("a", .null)], "\t", 45, 50⟩] := by
    simp only [text, assignment]
    cbv
  have injected : (inject .standard [] (Region.rendered render) text).outcome = .ok output := by
    simp only [text, output, assignment, render]
    cbv
  have quiet : ∀ regions, (extract .standard [] text).outcome = .ok regions →
      ∀ region ∈ regions, Matcher.standard.occurrences (region.rendered render).surround = [] := by
    intro regions extractedToo region member
    obtain rfl := Except.ok.inj (extracted.symm.trans extractedToo)
    obtain rfl := List.mem_singleton.mp member
    simp only [render]
    cbv
  obtain ⟨_, _, again, idempotent⟩ :=
    regeneration_stable ⟨by decide, by decide⟩ quiet injected
  exact ⟨injected, again, idempotent⟩

end Inlay
