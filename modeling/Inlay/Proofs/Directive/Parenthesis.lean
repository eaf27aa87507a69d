import Inlay.Directive.Parenthesis

/-!
How a scan for the closing parenthesis gets past a text. As long as it meets no parenthesis outside
of literals, all that matters is whether it stands in a literal.
-/

namespace Inlay.Parenthesis

/-- A scan comes from the front of one text to a rest of it without meeting a parenthesis outside of
literals. -/
inductive Passes : Quoting → Text → Quoting → Text → Prop
  | refl {quoting : Quoting} {text : Text} : Passes quoting text quoting text
  | step {quoting last : Quoting} {c : CodePoint} {text rest : Text} :
      (quoting = .outside → weight c = 0) → Passes (quoting.next c) text last rest →
      Passes quoting (c :: text) last rest

namespace Passes

variable {first middle last : Quoting} {text between rest : Text}

theorem trans (passes : Passes first text middle between)
    (further : Passes middle between last rest) : Passes first text last rest := by
  induction passes with
  | refl => exact further
  | step weightless _ induction => exact .step weightless (induction further)

theorem split (passes : Passes first (text ++ between) last []) :
    ∃ middle, Passes first text middle [] ∧ Passes middle between last [] := by
  induction text generalizing first with
  | nil => exact ⟨first, .refl, passes⟩
  | cons c text induction =>
      cases passes with
      | step weightless passes =>
          obtain ⟨middle, passesText, passesBetween⟩ := induction passes
          exact ⟨middle, .step weightless passesText, passesBetween⟩

theorem next_eq {c : CodePoint} (passes : Passes first [c] last []) : first.next c = last := by
  generalize next : first.next c = middle
  cases passes with
  | step _ passes =>
      rw [next] at passes
      cases passes with
      | refl => rfl

/-- What a scan passes only moves the parenthesis that it finds. -/
theorem closing?_append (passes : Passes first text last []) (depth : Int) (rest : Text) :
    closing? first depth (text ++ rest) =
      (closing? last depth rest).map (· + text.length) := by
  generalize ended : ([] : Text) = nothing at passes
  induction passes with
  | refl =>
      subst ended
      simp
  | @step quoting last c text nothing weightless _ induction =>
      have unclosed : ¬(quoting = .outside ∧ c = ')' ∧ depth = 0) := by
        rintro ⟨outside, rfl, _⟩
        exact absurd (weightless outside) (by decide)
      have level : (if quoting = .outside then depth + weight c else depth) = depth := by
        split
        · next outside => rw [weightless outside, Int.add_zero]
        · rfl
      rw [List.cons_append, closing?]
      simp only [level, unclosed, if_false, induction ended, Option.map_map]
      rfl

end Passes

structure Plain (c : CodePoint) : Prop where
  not_quote : c ≠ '"'
  weightless : weight c = 0

instance (c : CodePoint) : Decidable (Plain c) :=
  decidable_of_iff (c ≠ '"' ∧ weight c = 0)
    ⟨fun ⟨notQuote, weightless⟩ => ⟨notQuote, weightless⟩,
      fun ⟨notQuote, weightless⟩ => ⟨notQuote, weightless⟩⟩

theorem Plain.next {c : CodePoint} (plain : Plain c) : Quoting.next .outside c = .outside :=
  if_neg plain.not_quote

theorem Plain.passes {c : CodePoint} (plain : Plain c) (text : Text) :
    Passes .outside (c :: text) .outside text := by
  apply Passes.step (fun _ => plain.weightless)
  rw [plain.next]
  exact .refl

theorem Passes.of_plain {text : Text} (plain : ∀ c ∈ text, Plain c) (rest : Text) :
    Passes .outside (text ++ rest) .outside rest := by
  induction text with
  | nil => exact .refl
  | cons c text induction =>
      have passesFirst := (plain c (List.mem_cons_self ..)).passes (text ++ rest)
      exact passesFirst.trans (induction fun d member => plain d (List.mem_cons_of_mem c member))

theorem Passes.dropWhile {accepts : CodePoint → Bool}
    (plain : ∀ c, accepts c = true → Plain c) (text : Text) :
    Passes .outside text .outside (text.dropWhile accepts) := by
  induction text with
  | nil => exact .refl
  | cons c text induction =>
      cases accepted : accepts c with
      | false =>
          rw [List.dropWhile_cons_of_neg (by simp [accepted])]
          exact .refl
      | true =>
          rw [List.dropWhile_cons_of_pos accepted]
          exact ((plain c accepted).passes text).trans induction

theorem closing?_sound {quoting : Quoting} {depth : Int} {text : Text} {offset : Nat}
    (found : closing? quoting depth text = some offset) :
    ∃ before after : Text, text = before ++ .ofChar ')' :: after ∧ before.length = offset := by
  induction text generalizing quoting depth offset with
  | nil => contradiction
  | cons c text induction =>
      simp only [closing?] at found
      generalize (if quoting = .outside then depth + weight c else depth) = level at found
      split at found
      · next closes =>
          obtain ⟨_, rfl, _⟩ := closes
          cases found
          exact ⟨[], text, rfl, rfl⟩
      · obtain ⟨inner, further, rfl⟩ := Option.map_eq_some_iff.mp found
        obtain ⟨before, after, rfl, rfl⟩ := induction further
        exact ⟨c :: before, after, rfl, rfl⟩

end Inlay.Parenthesis
