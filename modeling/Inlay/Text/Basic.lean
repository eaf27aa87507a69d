import Inlay.Text.CodePoint

namespace Inlay

abbrev Text := List CodePoint

namespace Text

def ofString (s : String) : Text :=
  s.toList.map CodePoint.ofChar

instance : Coe String Text := ⟨ofString⟩

def after? : Text → Text → Option Text
  | [], text => some text
  | _ :: _, [] => none
  | a :: lead, c :: text => if a = c then after? lead text else none

theorem after?_eq_some_iff {lead text rest : Text} :
    after? lead text = some rest ↔ text = lead ++ rest := by
  fun_induction after? lead text with
  | case1 text => simp [eq_comm]
  | case2 => simp
  | case3 lead c text induction => simp [induction]
  | case4 a lead c text different => simp [eq_comm, different]

/-- The part of a text between two offsets, each cut back to the text. -/
def slice (text : Text) (start stop : Int) : Text :=
  (text.drop start.toNat).take (stop.toNat - start.toNat)

def firstLine (text : Text) : Text :=
  text.takeWhile (· ≠ .newline)

/-- The lines of a text. A text without newlines is one line. -/
def lines : Text → List Text
  | [] => [[]]
  | c :: rest =>
      if c = .newline then [] :: lines rest
      else
        match lines rest with
        | [] => [[c]]
        | line :: more => (c :: line) :: more

def join (separator : Text) : List Text → Text
  | [] => []
  | [part] => part
  | part :: parts => part ++ separator ++ join separator parts

end Text

end Inlay
