import Mathlib.Data.List.Forall2
import Mathlib.Data.List.TakeWhile
import Inlay.Proofs.Directive.Grammar
import Inlay.Proofs.Json.Spelling

/-!
The arguments of an emit. They are read with brackets around them, and what is read is what the
parts between commas give, each one read alone: the text cannot close the brackets, and no part can
reach into the next one.
-/

namespace Inlay

namespace Json

theorem parse_eq_ok_iff_spelled {text : Text} {found : Value} :
    parse text = .ok found ↔ ∃ lead spelled trail, text = lead ++ (spelled ++ trail) ∧
      (∀ c ∈ lead, isBlank c = true) ∧ (∀ c ∈ trail, isBlank c = true) ∧
      (Phrase.value found).SpelledBy spelled := by
  constructor
  · intro succeeded
    obtain ⟨rest, reads, ended⟩ := reads_of_parse succeeded
    obtain ⟨spelled, shape, spells⟩ := reads.exists_spelled
    obtain ⟨lead, same, leadBlank⟩ := exists_blanks text
    obtain ⟨trail, sameRest, trailBlank⟩ := exists_blanks rest
    rw [ended, List.append_nil] at sameRest
    subst sameRest
    exact ⟨lead, spelled, rest, by rw [← shape, ← same], leadBlank, trailBlank, spells⟩
  · rintro ⟨lead, spelled, trail, rfl, leadBlank, trailBlank, spells⟩
    have ended : skipBlanks trail = [] := List.dropWhile_eq_nil_iff.mpr trailBlank
    have ends : Ends trail := by
      rw [Ends, ended]
      exact .ended
    exact parse_of_reads ((spells trail ends).after_blanks leadBlank) ended

theorem join_cons_comma (part next : Text) (parts : List Text) :
    Text.join "," (part :: next :: parts) =
      part ++ .ofChar ',' :: Text.join "," (next :: parts) := by
  rw [Text.join, List.append_assoc]
  · rfl
  · nofun

theorem Reads.exists_parts {values : List Value} {text rest : Text}
    (reads : Reads (.elements values) (skipBlanks text) rest) :
    ∃ parts, parts ≠ [] ∧ text = Text.join "," parts ++ .ofChar ']' :: rest ∧
      List.Forall₂ (fun part value => parse part = .ok value) parts values := by
  induction values generalizing text with
  | nil => cases reads
  | cons first more induction =>
      obtain ⟨lead, same, leadBlank⟩ := exists_blanks text
      cases reads with
      | lastElement readsFirst shape =>
          obtain ⟨spelled, sameFirst, spells⟩ := readsFirst.exists_spelled
          obtain ⟨trail, rfl, trailBlank⟩ := exists_blanks_of_mark shape
          have parsed := parse_eq_ok_iff_spelled.mpr
            ⟨lead, spelled, trail, rfl, leadBlank, trailBlank, spells⟩
          refine ⟨[lead ++ (spelled ++ trail)], List.cons_ne_nil _ _, ?_, .cons parsed .nil⟩
          rw [same, sameFirst, Text.join]
          simp only [List.append_assoc]
      | element readsFirst shape readsMore =>
          obtain ⟨spelled, sameFirst, spells⟩ := readsFirst.exists_spelled
          obtain ⟨trail, rfl, trailBlank⟩ := exists_blanks_of_mark shape
          have parsed := parse_eq_ok_iff_spelled.mpr
            ⟨lead, spelled, trail, rfl, leadBlank, trailBlank, spells⟩
          obtain ⟨parts, someParts, rfl, parsedMore⟩ := induction readsMore
          obtain ⟨next, others, rfl⟩ := List.exists_cons_of_ne_nil someParts
          refine ⟨(lead ++ (spelled ++ trail)) :: next :: others, List.cons_ne_nil _ _, ?_,
            .cons parsed parsedMore⟩
          rw [same, sameFirst, join_cons_comma]
          simp only [List.append_assoc, List.cons_append]

theorem reads_of_parts {parts : List Text} {values : List Value} (someParts : parts ≠ [])
    (parsed : List.Forall₂ (fun part value => parse part = .ok value) parts values) (rest : Text) :
    Reads (.elements values) (skipBlanks (Text.join "," parts ++ .ofChar ']' :: rest)) rest := by
  induction parsed with
  | nil => contradiction
  | @cons part first others more parsedFirst parsedMore induction =>
      obtain ⟨lead, spelled, trail, rfl, leadBlank, trailBlank, spells⟩ :=
        parse_eq_ok_iff_spelled.mp parsedFirst
      cases parsedMore with
      | nil =>
          have closed := skipBlanks_append_mark trailBlank (c := .ofChar ']') rfl rest
          have ends : Ends (trail ++ .ofChar ']' :: rest) := by
            rw [Ends, closed]
            exact .bracket rest
          simp only [Text.join, List.append_assoc]
          exact (Reads.lastElement (spells _ ends) closed).after_blanks leadBlank
      | @cons next _ others _ _ _ =>
          have readsMore := induction (List.cons_ne_nil _ _)
          rw [join_cons_comma]
          generalize Text.join "," (next :: others) = remaining at readsMore ⊢
          have separated := skipBlanks_append_mark trailBlank (c := .ofChar ',') rfl
            (remaining ++ .ofChar ']' :: rest)
          have ends : Ends (trail ++ .ofChar ',' :: (remaining ++ .ofChar ']' :: rest)) := by
            rw [Ends, separated]
            exact .comma _
          simp only [List.append_assoc, List.cons_append]
          exact (Reads.element (spells _ ends) separated readsMore).after_blanks leadBlank

/-- A closing bracket with only blanks behind it is the last one. -/
theorem eq_of_append_bracket {text lead rest : Text}
    (same : text ++ "]" = lead ++ .ofChar ']' :: rest) (ended : skipBlanks rest = []) :
    text = lead ∧ rest = [] := by
  have blank : ∀ c ∈ rest, isBlank c = true := List.dropWhile_eq_nil_iff.mp ended
  rcases List.eq_nil_or_concat rest with rfl | ⟨front, last, rfl⟩
  · exact ⟨List.append_inj_left' same rfl, rfl⟩
  · rw [List.concat_eq_append, ← List.cons_append, ← List.append_assoc] at same
    obtain rfl : .ofChar ']' = last := List.singleton_inj.mp (List.append_inj_right' same rfl)
    exact absurd (blank (.ofChar ']') (by simp)) (by decide)

theorem parse_list_eq_ok_iff {text : Text} {values : List Value} :
    parse ("[" ++ text ++ "]") = .ok (.arr values) ↔
      (values = [] ∧ ∀ c ∈ text, isBlank c = true) ∨
        ∃ parts, parts ≠ [] ∧ text = Text.join "," parts ∧
          List.Forall₂ (fun part value => parse part = .ok value) parts values := by
  constructor
  · intro succeeded
    obtain ⟨rest, reads, ended⟩ := reads_of_parse succeeded
    change Reads _ (.ofChar '[' :: (text ++ "]")) rest at reads
    generalize array : Value.arr values = found at reads
    cases reads with
    | emptyArray shape =>
        cases array
        obtain ⟨blanks, same, blank⟩ := exists_blanks_of_mark shape
        obtain ⟨rfl, _⟩ := eq_of_append_bracket same ended
        exact .inl ⟨rfl, blank⟩
    | array readsElements =>
        cases array
        obtain ⟨parts, someParts, same, parsed⟩ := readsElements.exists_parts
        obtain ⟨rfl, _⟩ := eq_of_append_bracket same ended
        exact .inr ⟨parts, someParts, rfl, parsed⟩
    | scalar _ _ notBracket => exact absurd rfl notBracket
  · rintro (⟨rfl, blank⟩ | ⟨parts, someParts, rfl, parsed⟩)
    · exact parse_of_reads (.emptyArray (skipBlanks_append_mark blank rfl [])) rfl
    · exact parse_of_reads (.array (reads_of_parts someParts parsed [])) rfl

end Json

namespace Command

/-- An emit takes no argument from blanks, and otherwise the values of the parts between commas,
each of which is read alone. -/
theorem emit_reads_parts (text : Text) (values : List Value) :
    (ofArguments .emit text = .ok (.emit values) ↔
      (values = [] ∧ ∀ c ∈ text, Json.isBlank c = true) ∨
        ∃ parts, parts ≠ [] ∧ text = Text.join "," parts ∧
          List.Forall₂ (fun part value => readArgument part part = .ok value) parts values) ∧
      (∀ value,
        ofArguments .emit text = .ok (.emit [value]) ↔ readArgument text text = .ok value) := by
  have bracketed (values : List Value) : ofArguments .emit text = .ok (.emit values) ↔
      Json.parse ("[" ++ text ++ "]") = .ok (.arr values) := by
    rw [← readList_eq_ok_iff]
    simp [ofArguments, map_eq_ok_iff]
  simp only [bracketed, readArgument_eq_ok_iff]
  refine ⟨Json.parse_list_eq_ok_iff, fun value => ?_⟩
  rw [Json.parse_list_eq_ok_iff]
  constructor
  · rintro (⟨empty, _⟩ | ⟨parts, _, rfl, parsed⟩)
    · contradiction
    · obtain ⟨part, _, parsedPart, none, rfl⟩ := List.forall₂_cons_right_iff.mp parsed
      rw [List.forall₂_nil_right_iff.mp none]
      exact parsedPart
  · intro parsed
    exact .inr ⟨[text], List.cons_ne_nil _ _, rfl, .cons parsed .nil⟩

end Command

end Inlay
