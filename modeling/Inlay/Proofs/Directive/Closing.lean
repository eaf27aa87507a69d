import Mathlib.Data.Int.Interval
import Mathlib.Data.Set.Card
import Inlay.Proofs.Directive.Literal

namespace Inlay.Parenthesis

/-- The places of a character outside of literals up to an index. -/
def unquoted (body : Text) (start : Int) (c : CodePoint) (last : Int) : Set Int :=
  {index | start ≤ index ∧ index ≤ last ∧ body.at? index = some c ∧ ¬Quoted body start index}

/-- A closing parenthesis outside of literals with as many opening as closing ones up to it. -/
structure Closes (body : Text) (start last : Int) : Prop where
  inside : -body.length ≤ start
  closing : last ∈ unquoted body start ')' last
  balanced : (unquoted body start '(' last).ncard = (unquoted body start ')' last).ncard

theorem getElem?_scanned {body : Text} {start : Int} (first : -body.length ≤ start)
    (offset : Nat) : (scanned body start)[offset]? = body.at? (start + offset) := by
  by_cases forward : 0 ≤ start
  · rw [scanned, if_pos forward, List.getElem?_drop, Text.at?, if_pos (by omega)]
    congr 1
    omega
  · rw [scanned, if_neg forward]
    by_cases behind : 0 ≤ start + offset
    · rw [List.getElem?_append_right (by rw [List.length_drop]; omega), Text.at?, if_pos behind,
        List.length_drop]
      congr 1
      omega
    · rw [List.getElem?_append_left (by rw [List.length_drop]; omega), List.getElem?_drop,
        Text.at?, if_neg behind, if_pos (by omega)]
      congr 1
      omega

section Depth

variable {body : Text} {start index : Int}

theorem finite_unquoted (body : Text) (start : Int) (c : CodePoint) (last : Int) :
    (unquoted body start c last).Finite :=
  (Set.finite_Icc start last).subset fun _ member => ⟨member.1, member.2.1⟩

theorem unquoted_before_start (c : CodePoint) : unquoted body start c (start - 1) = ∅ := by
  apply Set.eq_empty_of_forall_notMem
  rintro other ⟨lower, upper, _⟩
  omega

theorem ncard_unquoted_of_mem {c : CodePoint} (member : index ∈ unquoted body start c index) :
    (unquoted body start c index).ncard = (unquoted body start c (index - 1)).ncard + 1 := by
  have inserted : unquoted body start c index =
      insert index (unquoted body start c (index - 1)) := by
    ext other
    constructor
    · rintro ⟨lower, upper, found⟩
      rcases Int.lt_or_eq_of_le upper with before | rfl
      · exact .inr ⟨lower, by omega, found⟩
      · exact .inl rfl
    · rintro (rfl | ⟨lower, upper, found⟩)
      · exact member
      · exact ⟨lower, by omega, found⟩
  have fresh : index ∉ unquoted body start c (index - 1) := by
    rintro ⟨_, upper, _⟩
    omega
  rw [inserted, Set.ncard_insert_of_notMem fresh (finite_unquoted body start c (index - 1))]

theorem unquoted_of_notMem {c : CodePoint} (notMember : index ∉ unquoted body start c index) :
    unquoted body start c index = unquoted body start c (index - 1) := by
  ext other
  constructor
  · rintro ⟨lower, upper, found⟩
    have ne : other ≠ index := by
      rintro rfl
      exact notMember ⟨lower, upper, found⟩
    exact ⟨lower, by omega, found⟩
  · rintro ⟨lower, upper, found⟩
    exact ⟨lower, by omega, found⟩

/-- How many of the parentheses in front of an index are open there. -/
noncomputable def depthAt (body : Text) (start index : Int) : Int :=
  (unquoted body start '(' (index - 1)).ncard - (unquoted body start ')' (index - 1)).ncard

theorem depthAt_start : depthAt body start start = 0 := by
  rw [depthAt, unquoted_before_start, unquoted_before_start, Int.sub_self]

theorem Reached.mem_unquoted_iff (reached : Reached body start index) (c : CodePoint) :
    index ∈ unquoted body start c index ↔
      body.at? index = some c ∧ quotingAt body start index = .outside := by
  have outside : ¬Quoted body start index ↔ quotingAt body start index = .outside := by
    rw [reached.quoted_iff, not_not]
  constructor
  · rintro ⟨_, _, found, notQuoted⟩
    exact ⟨found, outside.mp notQuoted⟩
  · rintro ⟨found, isOutside⟩
    exact ⟨reached.passed, Int.le_refl index, found, outside.mpr isOutside⟩

theorem Reached.depthAt_succ {c : CodePoint} (reached : Reached body start index)
    (found : body.at? index = some c) :
    depthAt body start (index + 1) =
      if quotingAt body start index = .outside then depthAt body start index + weight c
      else depthAt body start index := by
  have member (d : CodePoint) : index ∈ unquoted body start d index ↔
      c = d ∧ quotingAt body start index = .outside := by
    rw [reached.mem_unquoted_iff d, found, Option.some.injEq]
  have count (d : CodePoint) : ((unquoted body start d index).ncard : Int) =
      (unquoted body start d (index - 1)).ncard +
        if c = d ∧ quotingAt body start index = .outside then 1 else 0 := by
    split
    · next here => rw [ncard_unquoted_of_mem ((member d).mpr here), Int.natCast_add]; rfl
    · next notHere => rw [unquoted_of_notMem (mt (member d).mp notHere), Int.add_zero]
  rw [depthAt, depthAt, Int.add_sub_cancel, count, count, weight]
  by_cases outside : quotingAt body start index = .outside
  · simp only [outside, and_true, if_true]
    by_cases opening : c = '('
    · have notClosing : c ≠ ')' := by
        rw [opening]
        decide
      rw [if_pos opening, if_neg notClosing, if_pos opening]
      omega
    · rw [if_neg opening, if_neg opening]
      split <;> omega
  · simp [outside]

theorem Reached.closes_iff {c : CodePoint} (reached : Reached body start index)
    (found : body.at? index = some c) :
    Closes body start index ↔
      quotingAt body start index = .outside ∧ c = ')' ∧ depthAt body start (index + 1) = 0 := by
  have balanced : depthAt body start (index + 1) = 0 ↔
      (unquoted body start '(' index).ncard = (unquoted body start ')' index).ncard := by
    rw [depthAt, Int.add_sub_cancel]
    omega
  constructor
  · rintro ⟨_, closing, equal⟩
    obtain ⟨isClosing, outside⟩ := (reached.mem_unquoted_iff _).mp closing
    exact ⟨outside, Option.some.inj (found.symm.trans isClosing), balanced.mpr equal⟩
  · rintro ⟨outside, rfl, level⟩
    exact ⟨reached.inside, (reached.mem_unquoted_iff _).mpr ⟨found, outside⟩, balanced.mp level⟩

def Found (body : Text) (start index : Int) : Option Nat → Prop
  | some offset => IsLeast {last | index ≤ last ∧ Closes body start last} (index + offset)
  | none => ∀ last, index ≤ last → ¬Closes body start last

theorem Found.step {found : Option Nat} (notHere : ¬Closes body start index)
    (further : Found body start (index + 1) found) :
    Found body start index (found.map (· + 1)) := by
  have beyond {last : Int} (le : index ≤ last) (closes : Closes body start last) :
      index + 1 ≤ last := by
    have ne : index ≠ last := fun same => notHere (same ▸ closes)
    omega
  cases found with
  | none => exact fun last le closes => further last (beyond le closes) closes
  | some offset =>
      have place : index + ((offset + 1 : Nat) : Int) = index + 1 + offset := by omega
      rw [Option.map_some, Found, place]
      refine ⟨⟨by omega, further.1.2⟩, ?_⟩
      rintro last ⟨le, closes⟩
      exact further.2 ⟨beyond le closes, closes⟩

theorem Reached.found_closing? {text : Text} (reached : Reached body start index)
    (reads : ∀ offset : Nat, text[offset]? = body.at? (index + offset)) :
    Found body start index
      (closing? (quotingAt body start index) (depthAt body start index) text) := by
  induction text generalizing index with
  | nil =>
      have ended : body.at? index = none := by simpa using (reads 0).symm
      intro last le closes
      have before := Text.lt_length_of_at? closes.closing.2.2.1
      obtain ⟨c, found⟩ := Text.exists_at? (Int.le_trans reached.inside reached.passed)
        (Int.lt_of_le_of_lt le before)
      simp [ended] at found
  | cons c text induction =>
      have found : body.at? index = some c := by simpa using (reads 0).symm
      have readsBehind (offset : Nat) : text[offset]? = body.at? (index + 1 + offset) := by
        rw [show index + 1 + offset = index + ((offset + 1 : Nat) : Int) by omega, ← reads]
        rfl
      -- State and depth of the scan behind this character are those of the body there.
      have further := induction (reached.succ found) readsBehind
      rw [quotingAt_succ_of_some reached.passed found] at further
      have closesHere := reached.closes_iff found
      rw [closing?, ← reached.depthAt_succ found]
      split
      · next here =>
          refine ⟨⟨by omega, ?_⟩, fun last later => ?_⟩
          · rw [Int.natCast_zero, Int.add_zero]
            exact closesHere.mpr here
          · rw [Int.natCast_zero, Int.add_zero]
            exact later.1
      · next notHere => exact further.step (mt closesHere.mp notHere)

end Depth

/-- A scan finds the first closing parenthesis outside of literals up to which as many parentheses
outside of literals are opened as closed. It fails at once if it starts in front of the body, and at
the end of the body if there is no such parenthesis. -/
theorem find_eq_ok_iff_isLeast (body : Text) (start : Int) :
    (∀ position, find body start = .ok position ↔
      IsLeast {last | Closes body start last} position) ∧
    (find body start = .error .outOfRange ↔ start < -body.length) ∧
    (find body start = .error (.unclosed body) ↔
      -body.length ≤ start ∧ ∀ last, ¬Closes body start last) := by
  by_cases outside : start < -body.length
  · have none (last : Int) : ¬Closes body start last := fun closes =>
      Int.not_lt.mpr closes.inside outside
    rw [find, if_pos outside]
    refine ⟨fun position => ⟨nofun, fun least => absurd least.1 (none position)⟩, ?_, ?_⟩
    · simp [outside]
    · refine ⟨nofun, fun inside => ?_⟩
      omega
  · have reached : Reached body start start :=
      ⟨Int.not_lt.mp outside, Int.le_refl start, fun before => absurd before (Int.lt_irrefl start)⟩
    have found := reached.found_closing? (getElem?_scanned (by omega))
    rw [quotingAt_start, depthAt_start] at found
    rw [find, if_neg outside]
    cases result : closing? .outside 0 (scanned body start) with
    | none =>
        rw [result] at found
        have none (last : Int) : ¬Closes body start last :=
          fun closes => found last closes.closing.1 closes
        refine ⟨fun position => ⟨nofun, fun least => absurd least.1 (none position)⟩, ?_, ?_⟩
        · simp [outside]
        · simp only [true_iff]
          exact ⟨by omega, none⟩
    | some offset =>
        rw [result] at found
        have least : IsLeast {last | Closes body start last} (start + offset) :=
          ⟨found.1.2, fun last closes => found.2 ⟨closes.closing.1, closes⟩⟩
        refine ⟨fun position => ⟨?_, ?_⟩, by simp [outside], ⟨nofun, fun unclosed => ?_⟩⟩
        · rintro ⟨⟩
          exact least
        · intro other
          exact congrArg Except.ok (least.unique other)
        · exact absurd least.1 (unclosed.2 _)

/-- From a negative index on, the end of the body is scanned in front of the whole of it. -/
example : find "a)\")\"(b" (-2) = .ok 1 := by decide

end Inlay.Parenthesis
