import Inlay.Proofs.Json.Literal
import Inlay.Proofs.Json.Numeral

/-!
What a reader reads is spelled by the text in front of the rest, and a spelling is read in the same
way in other surroundings, if something stands behind it that ends a value.
-/

namespace Inlay.Json

/-- Something ends a value: the end of the text or a delimiter, perhaps after blanks. -/
def Ends (rest : Text) : Prop :=
  Delimited (skipBlanks rest)

theorem Ends.goesOn_head {rest : Text} (ends : Ends rest) :
    ∀ c ∈ rest.head?, Numeral.goesOn c = false := by
  intro c first
  obtain ⟨tail, rfl⟩ := List.head?_eq_some_iff.mp first
  by_cases blank : isBlank c = true
  · simp only [isBlank, Bool.or_eq_true, decide_eq_true_eq] at blank
    rcases blank with ((rfl | rfl) | rfl) | rfl <;> rfl
  · rw [Ends, skipBlanks, List.dropWhile_cons_of_neg blank] at ends
    cases ends <;> rfl

theorem scalar_spelled {text : Text} {found : Scanned Value text}
    (read : scalar text = .ok found) :
    ∃ spelled, text = spelled ++ found.rest ∧ ∀ rest', Ends rest' →
      Gives scalar (spelled ++ rest') found.value rest' := by
  simp only [scalar] at read
  split at read
  · next named search =>
      obtain ⟨entry, known, namedEntry⟩ := List.exists_of_findSome?_eq_some search
      obtain ⟨value, ok, rfl⟩ := map_eq_ok_iff.mp read
      obtain ⟨same, sameValue⟩ := named?_sound namedEntry
      refine ⟨entry.1, same, fun rest' _ => scalar_of_mem_names ?_ rest'⟩
      change (entry.1, Except.ok value) ∈ names
      rwa [← ok, sameValue]
  · split at read
    · next numeral scanned =>
        obtain ⟨value, evaluated, rfl⟩ := map_eq_ok_iff.mp read
        obtain ⟨spelled, same, digit, anywhere⟩ := Numeral.scan?_spelled scanned
        refine ⟨spelled, same, fun rest' ends => ?_⟩
        obtain ⟨shorter, again⟩ := anywhere rest' ends.goesOn_head
        have unnamed := findSome?_names_eq_none (digit rest')
        apply Gives.of_map
        simp only [scalar, unnamed, again, evaluated]
        rfl
    · contradiction

theorem exists_blanks (text : Text) :
    ∃ blanks, text = blanks ++ skipBlanks text ∧ ∀ c ∈ blanks, isBlank c = true :=
  ⟨text.takeWhile isBlank, List.takeWhile_append_dropWhile.symm,
    List.all_eq_true.mp List.all_takeWhile⟩

theorem exists_blanks_of_mark {c : CodePoint} {text rest : Text}
    (shape : skipBlanks text = c :: rest) :
    ∃ blanks, text = blanks ++ c :: rest ∧ ∀ d ∈ blanks, isBlank d = true := by
  obtain ⟨blanks, same, blank⟩ := exists_blanks text
  exact ⟨blanks, by rw [← shape, ← same], blank⟩

theorem skipBlanks_append_mark {blanks : Text} (blank : ∀ c ∈ blanks, isBlank c = true)
    {c : CodePoint} (visible : isBlank c = false) (rest : Text) :
    skipBlanks (blanks ++ c :: rest) = c :: rest := by
  rw [skipBlanks_append blank]
  exact List.dropWhile_cons_of_neg (Bool.eq_false_iff.mp visible)

theorem mark_spelled {c : CodePoint} {text rest : Text} (shape : skipBlanks text = c :: rest) :
    ∃ spelled, text = spelled ++ rest ∧ ∀ rest', skipBlanks (spelled ++ rest') = c :: rest' := by
  obtain ⟨blanks, same, blank⟩ := exists_blanks_of_mark shape
  have visible : isBlank c = false := by
    have kept := List.head?_dropWhile_not isBlank text
    rw [← skipBlanks, shape] at kept
    simpa using kept
  refine ⟨blanks ++ [c], by rw [same, List.append_assoc, List.singleton_append], fun rest' => ?_⟩
  rw [List.append_assoc]
  exact skipBlanks_append_mark blank visible rest'

/-- A text spells a phrase in front of anything that ends a value. -/
def Phrase.SpelledBy (phrase : Phrase) (spelled : Text) : Prop :=
  ∀ rest, Ends rest → Reads phrase (spelled ++ rest) rest

theorem Phrase.SpelledBy.after_blanks {phrase : Phrase} {text spelled rest : Text}
    (spells : phrase.SpelledBy spelled) (shape : skipBlanks text = spelled ++ rest) :
    ∃ lead, text = lead ++ rest ∧ ∀ rest', Ends rest' →
      Reads phrase (skipBlanks (lead ++ rest')) rest' := by
  obtain ⟨blanks, same, blank⟩ := exists_blanks text
  refine ⟨blanks ++ spelled, by rw [List.append_assoc, ← shape, ← same], fun rest' ends => ?_⟩
  rw [List.append_assoc]
  exact (spells rest' ends).after_blanks blank

theorem name_spelled {opening : Nat} {text afterColon : Text} {name : Scanned Text text}
    (read : quoted opening text = .ok name)
    (colon : skipBlanks name.rest = .ofChar ':' :: afterColon) :
    ∃ spelled, text = spelled ++ afterColon ∧ ∀ rest', ∃ afterName,
      Gives (quoted opening) (spelled ++ rest') name.value afterName ∧
        skipBlanks afterName = .ofChar ':' :: rest' := by
  obtain ⟨literal, same, closes⟩ := quoted_spelled read
  obtain ⟨mark, sameRest, marked⟩ := mark_spelled colon
  refine ⟨literal ++ mark, by rw [List.append_assoc, ← sameRest, ← same], fun rest' => ?_⟩
  refine ⟨mark ++ rest', ?_, marked rest'⟩
  rw [List.append_assoc]
  exact closes opening (mark ++ rest')

theorem Reads.exists_spelled {phrase : Phrase} {text rest : Text} (reads : Reads phrase text rest) :
    ∃ spelled, text = spelled ++ rest ∧ phrase.SpelledBy spelled := by
  induction reads with
  | @string opening text found read =>
      obtain ⟨literal, same, closes⟩ := quoted_spelled read
      refine ⟨.ofChar '"' :: literal, by rw [List.cons_append, ← same], fun rest' _ => ?_⟩
      obtain ⟨_, again⟩ := closes opening rest'
      exact .string again
  | emptyObject shape =>
      obtain ⟨closing, rfl, marked⟩ := mark_spelled shape
      exact ⟨.ofChar '{' :: closing, rfl, fun rest' _ => .emptyObject (marked rest')⟩
  | object _ induction =>
      obtain ⟨spelled, shape, spells⟩ := induction
      obtain ⟨members, rfl, readsMembers⟩ := spells.after_blanks shape
      exact ⟨.ofChar '{' :: members, rfl, fun rest' ends => .object (readsMembers rest' ends)⟩
  | emptyArray shape =>
      obtain ⟨closing, rfl, marked⟩ := mark_spelled shape
      exact ⟨.ofChar '[' :: closing, rfl, fun rest' _ => .emptyArray (marked rest')⟩
  | array _ induction =>
      obtain ⟨spelled, shape, spells⟩ := induction
      obtain ⟨elements, rfl, readsElements⟩ := spells.after_blanks shape
      exact ⟨.ofChar '[' :: elements, rfl, fun rest' ends => .array (readsElements rest' ends)⟩
  | scalar _ _ _ read =>
      obtain ⟨spelled, same, again⟩ := scalar_spelled read
      exact ⟨spelled, same, fun rest' ends => .of_scalar (again rest' ends)⟩
  | lastElement _ shape induction =>
      obtain ⟨value, rfl, spellsValue⟩ := induction
      obtain ⟨closing, rfl, marked⟩ := mark_spelled shape
      refine ⟨value ++ closing, by rw [List.append_assoc], fun rest' _ => ?_⟩
      have ends : Ends (closing ++ rest') := by
        rw [Ends, marked]
        exact .bracket rest'
      rw [List.append_assoc]
      exact .lastElement (spellsValue _ ends) (marked rest')
  | element _ shape _ inductionFirst inductionMore =>
      obtain ⟨value, rfl, spellsValue⟩ := inductionFirst
      obtain ⟨comma, rfl, marked⟩ := mark_spelled shape
      obtain ⟨spelled, shapeMore, spells⟩ := inductionMore
      obtain ⟨more, rfl, readsMore⟩ := spells.after_blanks shapeMore
      refine ⟨value ++ (comma ++ more), by simp only [List.append_assoc], fun rest' ends => ?_⟩
      have endsValue : Ends (comma ++ (more ++ rest')) := by
        rw [Ends, marked]
        exact .comma _
      simp only [List.append_assoc]
      exact .element (spellsValue _ endsValue) (marked _) (readsMore rest' ends)
  | lastMember readName colon _ shape induction =>
      obtain ⟨name, rfl, named⟩ := name_spelled readName colon
      obtain ⟨spelled, shapeValue, spells⟩ := induction
      obtain ⟨value, rfl, readsValue⟩ := spells.after_blanks shapeValue
      obtain ⟨closing, rfl, marked⟩ := mark_spelled shape
      refine ⟨.ofChar '"' :: (name ++ (value ++ closing)), by simp, fun rest' _ => ?_⟩
      have ends : Ends (closing ++ rest') := by
        rw [Ends, marked]
        exact .brace rest'
      obtain ⟨_, ⟨_, again⟩, colonAgain⟩ := named (value ++ (closing ++ rest'))
      simp only [List.cons_append, List.append_assoc]
      exact .lastMember again colonAgain (readsValue _ ends) (marked rest')
  | member readName colon _ shape _ inductionFirst inductionMore =>
      obtain ⟨name, rfl, named⟩ := name_spelled readName colon
      obtain ⟨spelled, shapeValue, spells⟩ := inductionFirst
      obtain ⟨value, rfl, readsValue⟩ := spells.after_blanks shapeValue
      obtain ⟨comma, rfl, marked⟩ := mark_spelled shape
      obtain ⟨spelledMore, shapeMore, spellsMore⟩ := inductionMore
      obtain ⟨more, rfl, readsMore⟩ := spellsMore.after_blanks shapeMore
      refine ⟨.ofChar '"' :: (name ++ (value ++ (comma ++ more))), by simp, fun rest' ends => ?_⟩
      have endsValue : Ends (comma ++ (more ++ rest')) := by
        rw [Ends, marked]
        exact .comma _
      obtain ⟨_, ⟨_, again⟩, colonAgain⟩ := named (value ++ (comma ++ (more ++ rest')))
      simp only [List.cons_append, List.append_assoc]
      exact .member again colonAgain (readsValue _ endsValue) (marked _) (readsMore rest' ends)

end Inlay.Json
