import Mathlib.Algebra.Ring.Nat
import Mathlib.Data.List.Induction
import Mathlib.Logic.ExistsUnique
import Inlay.Text.Position

/-!
Offsets and positions. The lines of a text, each with the newline behind it, take up the text from
its beginning to its end, so that a line and a column in it stand for one offset; and the further on
an offset lies, the later is its position.
-/

namespace Inlay

namespace Text

theorem lines_newline (text : Text) : lines (.newline :: text) = [] :: text.lines := rfl

theorem exists_lines_eq_cons (text : Text) : ∃ first more, text.lines = first :: more := by
  cases text with
  | nil => exact ⟨[], [], rfl⟩
  | cons c text =>
      rw [lines]
      split
      · exact ⟨_, _, rfl⟩
      · split
        · exact ⟨_, _, rfl⟩
        · exact ⟨_, _, rfl⟩

theorem lines_cons {c : CodePoint} (different : c ≠ .newline) {text first : Text}
    {more : List Text} (split : text.lines = first :: more) :
    lines (c :: text) = (c :: first) :: more := by
  rw [lines, if_neg different, split]

theorem lines_append (before rest : Text) :
    ∃ front last first more, before.lines = front ++ [last] ∧ rest.lines = first :: more ∧
      (before ++ rest).lines = front ++ (last ++ first) :: more := by
  induction before with
  | nil =>
      obtain ⟨first, more, split⟩ := rest.exists_lines_eq_cons
      exact ⟨[], [], first, more, rfl, split, split⟩
  | cons c before induction =>
      obtain ⟨front, last, first, more, inFront, behind, whole⟩ := induction
      by_cases newline : c = .newline
      · subst newline
        refine ⟨[] :: front, last, first, more, ?_, behind, ?_⟩
        · rw [lines_newline, inFront, List.cons_append]
        · rw [List.cons_append, lines_newline, whole, List.cons_append]
      · cases front with
        | nil =>
            exact ⟨[], c :: last, first, more, lines_cons newline inFront, behind,
              lines_cons newline whole⟩
        | cons line front =>
            exact ⟨(c :: line) :: front, last, first, more, lines_cons newline inFront, behind,
              lines_cons newline whole⟩

theorem length_lines (text : Text) : text.lines.length = text.count .newline + 1 := by
  induction text with
  | nil => rfl
  | cons c text induction =>
      by_cases newline : c = .newline
      · rw [newline, lines_newline, List.length_cons, induction, List.count_cons_self]
      · obtain ⟨first, more, split⟩ := exists_lines_eq_cons text
        rw [lines_cons newline split, List.count_cons_of_ne newline, ← induction, split]
        rfl

theorem getLast?_lines (text : Text) :
    text.lines.getLast? = some (text.reverse.takeWhile (· ≠ .newline)).reverse := by
  induction text using List.reverseRecOn with
  | nil => rfl
  | append_singleton text c induction =>
      obtain ⟨front, last, first, more, inFront, behind, whole⟩ := lines_append text [c]
      rw [whole, List.reverse_append, List.reverse_singleton, List.singleton_append]
      by_cases newline : c = .newline
      · -- The text goes on with an empty line, which is the last one now.
        subst newline
        cases behind
        simp [lines]
      · cases (lines_cons newline rfl).symm.trans behind
        rw [inFront, List.getLast?_concat, Option.some.injEq] at induction
        rw [List.getLast?_concat, List.takeWhile_cons_of_pos (by simpa using newline),
          List.reverse_cons, induction]

theorem sum_lines (text : Text) : (text.lines.map (·.length + 1)).sum = text.length + 1 := by
  induction text with
  | nil => rfl
  | cons c text induction =>
      by_cases newline : c = .newline
      · rw [newline, lines_newline, List.map_cons, List.sum_cons, induction, List.length_cons]
        exact Nat.add_comm ..
      · obtain ⟨first, more, split⟩ := exists_lines_eq_cons text
        rw [split, List.map_cons, List.sum_cons] at induction
        rw [lines_cons newline split, List.map_cons, List.sum_cons, List.length_cons,
          List.length_cons, Nat.add_right_comm, ← induction]

def lineOffset (text : Text) (index : Nat) : Nat :=
  ((text.lines.take index).map (·.length + 1)).sum

theorem lineOffset_succ {text line : Text} {index : Nat} (found : text.lines[index]? = some line) :
    text.lineOffset (index + 1) = text.lineOffset index + (line.length + 1) := by
  rw [lineOffset, List.take_add_one, found]
  simp [lineOffset]

theorem lineOffset_mono (text : Text) {index later : Nat} (ordered : index ≤ later) :
    text.lineOffset index ≤ text.lineOffset later := by
  have split := congrArg (fun lines : List Text => (lines.map (·.length + 1)).sum)
    (List.take_append_drop index (text.lines.take later))
  simp only [List.map_append, List.sum_append, List.take_take, Nat.min_eq_left ordered] at split
  rw [lineOffset, lineOffset]
  omega

theorem lineOffset_length_lines (text : Text) :
    text.lineOffset text.lines.length = text.length + 1 := by
  rw [lineOffset, List.take_length, sum_lines]

end Text

/-- The line with a number. Lines count from one. -/
def Text.line (text : Text) (number : Int) : Text :=
  text.lines.getD (number - 1).toNat []

namespace Position

/-- A line of the text, and a column in it or just after its end. -/
structure InText (text : Text) (position : Position) : Prop where
  line_pos : 1 ≤ position.line
  line_le : position.line ≤ text.lines.length
  column_pos : 1 ≤ position.column
  column_le : position.column ≤ (text.line position.line).length + 1

def offset (text : Text) (position : Position) : Int :=
  text.lineOffset (position.line - 1).toNat + position.column - 1

def Precedes (earlier later : Position) : Prop :=
  earlier.line < later.line ∨ earlier.line = later.line ∧ earlier.column < later.column

variable {text : Text} {position other : Position}

theorem inText_iff :
    position.InText text ↔ ∃ (index column : Nat) (line : Text),
      position = ⟨index + 1, column + 1⟩ ∧ text.lines[index]? = some line ∧
        column ≤ line.length := by
  constructor
  · intro inText
    obtain ⟨line_pos, line_le, column_pos, column_le⟩ := inText
    have inside : (position.line - 1).toNat < text.lines.length := by omega
    refine ⟨(position.line - 1).toNat, (position.column - 1).toNat, _, ?_,
      List.getElem?_eq_getElem inside, ?_⟩
    · cases position
      rw [Position.mk.injEq]
      dsimp only at line_pos column_pos ⊢
      omega
    · rw [Text.line, List.getD_eq_getElem?_getD, List.getElem?_eq_getElem inside,
        Option.getD_some] at column_le
      omega
  · intro found
    obtain ⟨index, column, line, rfl, found, within⟩ := found
    have inside := (List.getElem?_eq_some_iff.mp found).1
    have line_eq : text.line (index + 1) = line := by
      rw [Text.line, Int.add_sub_cancel, Int.toNat_natCast, List.getD_eq_getElem?_getD, found,
        Option.getD_some]
    constructor
    · change 1 ≤ (index : Int) + 1
      omega
    · change (index : Int) + 1 ≤ text.lines.length
      omega
    · change 1 ≤ (column : Int) + 1
      omega
    · rw [line_eq]
      change (column : Int) + 1 ≤ line.length + 1
      omega

theorem offset_mk (text : Text) (index column : Nat) :
    offset text ⟨index + 1, column + 1⟩ = text.lineOffset index + column := by
  simp only [offset, Int.add_sub_cancel, Int.toNat_natCast]
  omega

theorem InText.offset_bounds (inText : position.InText text) :
    0 ≤ position.offset text ∧ position.offset text ≤ text.length := by
  obtain ⟨index, column, line, rfl, found, within⟩ := inText_iff.mp inText
  have next := Text.lineOffset_succ found
  have inside : index + 1 ≤ text.lines.length := (List.getElem?_eq_some_iff.mp found).1
  have bound := text.lineOffset_mono inside
  rw [Text.lineOffset_length_lines] at bound
  rw [offset_mk]
  omega

theorem InText.offset_lt_offset (inText : position.InText text) (inText' : other.InText text)
    (precedes : position.Precedes other) : position.offset text < other.offset text := by
  obtain ⟨index, column, line, rfl, found, within⟩ := inText_iff.mp inText
  obtain ⟨index', column', line', rfl, found', within'⟩ := inText_iff.mp inText'
  rw [offset_mk, offset_mk]
  cases precedes with
  | inl above =>
      -- The newline of the upper line lies between the two.
      simp only at above
      have next := Text.lineOffset_succ found
      have later : text.lineOffset (index + 1) ≤ text.lineOffset index' :=
        text.lineOffset_mono (by omega)
      omega
  | inr inLine =>
      simp only at inLine
      obtain rfl : index = index' := by omega
      omega

theorem eq_or_precedes (position other : Position) :
    position = other ∨ position.Precedes other ∨ other.Precedes position := by
  cases position
  cases other
  simp only [Position.mk.injEq, Precedes]
  omega

theorem InText.eq_of_offset_eq (inText : position.InText text) (inText' : other.InText text)
    (same : position.offset text = other.offset text) : position = other := by
  rcases eq_or_precedes position other with equal | before | behind
  · exact equal
  · have ordered := inText.offset_lt_offset inText' before
    omega
  · have ordered := inText'.offset_lt_offset inText behind
    omega

theorem inText_after (before rest : Text) :
    (after before).InText (before ++ rest) ∧
      (after before).offset (before ++ rest) = before.length := by
  obtain ⟨front, last, first, more, inFront, _, whole⟩ := Text.lines_append before rest
  have counted := before.length_lines
  have behindNewline := before.getLast?_lines
  have total := before.sum_lines
  rw [inFront, List.length_append, List.length_singleton] at counted
  rw [inFront, List.getLast?_concat, Option.some.injEq] at behindNewline
  simp only [inFront, List.map_append, List.map_singleton, List.sum_append,
    List.sum_singleton] at total
  have after_eq : after before = ⟨front.length + 1, last.length + 1⟩ := by
    rw [after, behindNewline, List.length_reverse]
    congr 2
    omega
  rw [after_eq]
  constructor
  · refine inText_iff.mpr ⟨front.length, last.length, last ++ first, rfl, ?_, ?_⟩
    · simp [whole]
    · simp
  · rw [offset_mk, Text.lineOffset, whole, List.take_left]
    omega

theorem inText_after_take {offset : Int} (inside : 0 ≤ offset ∧ offset ≤ text.length) :
    (after (text.take offset.toNat)).InText text ∧
      (after (text.take offset.toNat)).offset text = offset := by
  have found := inText_after (text.take offset.toNat) (text.drop offset.toNat)
  rw [List.take_append_drop, List.length_take] at found
  refine ⟨found.1, ?_⟩
  omega

theorem ofOffset_eq_ok_iff {offset : Int} :
    ofOffset text offset = .ok position ↔
      position.InText text ∧ position.offset text = offset := by
  constructor
  · intro located
    rw [ofOffset] at located
    split at located
    · next inside =>
        cases located
        exact inText_after_take inside
    · contradiction
  · intro found
    obtain ⟨inText, rfl⟩ := found
    have bounds := inText.offset_bounds
    obtain ⟨located, same⟩ := inText_after_take bounds
    rw [ofOffset, if_pos bounds, located.eq_of_offset_eq inText same]

theorem Precedes.of_offset_lt (inText : position.InText text) (inText' : other.InText text)
    (ordered : position.offset text < other.offset text) : position.Precedes other := by
  rcases eq_or_precedes position other with rfl | precedes | behind
  · omega
  · exact precedes
  · have reversed := inText'.offset_lt_offset inText behind
    omega

/-- Only offsets outside of a text have no position. All others correspond to the lines and columns
of the text, one to one and in order. -/
theorem ofOffset_orderIso (text : Text) :
    (∀ offset : Int, (∃ fault, ofOffset text offset = .error fault) ↔
      offset < 0 ∨ text.length < offset) ∧
    (∀ (offset : Int) (position : Position), ofOffset text offset = .ok position ↔
      position.InText text ∧ position.offset text = offset) ∧
    (∀ offset : Int, 0 ≤ offset → offset ≤ text.length →
      ∃! position : Position, position.InText text ∧ position.offset text = offset) ∧
    (∀ position : Position, position.InText text →
      ∃! offset : Int, ofOffset text offset = .ok position) ∧
    ∀ (offset offset' : Int) (position position' : Position),
      ofOffset text offset = .ok position → ofOffset text offset' = .ok position' →
      (offset < offset' ↔ position.Precedes position') := by
  refine ⟨?_, fun _ _ => ofOffset_eq_ok_iff, ?_, ?_, ?_⟩
  · intro offset
    by_cases inside : 0 ≤ offset ∧ offset ≤ text.length
    · simp [ofOffset, inside]
    · simp only [ofOffset, inside, if_false, Except.error.injEq, exists_eq', true_iff]
      omega
  · intro offset nonnegative within
    have located : ofOffset text offset = .ok (after (text.take offset.toNat)) :=
      if_pos ⟨nonnegative, within⟩
    refine ⟨_, ofOffset_eq_ok_iff.mp located, ?_⟩
    intro position found
    exact Except.ok.inj ((ofOffset_eq_ok_iff.mpr found).symm.trans located)
  · intro position inText
    refine ⟨_, ofOffset_eq_ok_iff.mpr ⟨inText, rfl⟩, ?_⟩
    intro offset located
    exact (ofOffset_eq_ok_iff.mp located).2.symm
  · intro offset offset' position position' located located'
    obtain ⟨inText, rfl⟩ := ofOffset_eq_ok_iff.mp located
    obtain ⟨inText', rfl⟩ := ofOffset_eq_ok_iff.mp located'
    exact ⟨.of_offset_lt inText inText', inText.offset_lt_offset inText'⟩

end Position

end Inlay
