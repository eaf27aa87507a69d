import Inlay.Extraction.Basic

/-!
Replacing the content of regions. The lines of directives stay as they are; the new content of a
region gets a newline at either end where it has none.
-/

namespace Inlay

namespace Text

def endLine (text : Text) : Text :=
  if text.getLast? = some .newline then text else text ++ [.newline]

def startLine (text : Text) : Text :=
  if text.head? = some .newline then text else .newline :: text

/-- The text with a newline at its beginning and at its end, which may be the same one. -/
def surround (text : Text) : Text :=
  text.endLine.startLine

@[simp] theorem getLast?_endLine (text : Text) : text.endLine.getLast? = some .newline := by
  unfold endLine
  split
  · assumption
  · simp

@[simp] theorem head?_surround (text : Text) : text.surround.head? = some .newline := by
  unfold surround startLine
  split
  · assumption
  · rfl

@[simp] theorem getLast?_surround (text : Text) : text.surround.getLast? = some .newline := by
  unfold surround startLine
  split
  · exact getLast?_endLine text
  · simp [List.getLast?_cons]

theorem surround_eq_self {text : Text} (first : text.head? = some .newline)
    (last : text.getLast? = some .newline) : text.surround = text := by
  simp [surround, startLine, endLine, first, last]

end Text

namespace Injection

/-- The text from `cursor` on with new contents for regions that lie in order behind it. -/
def splice (text : Text) (cursor : Int) : List (Region × Text) → Text
  | [] => text.drop cursor.toNat
  | (region, content) :: rest =>
      text.slice cursor region.start ++ content.surround ++ splice text region.stop rest

/-- Asks for the content of each region in turn, with its number, and gives up at the first
failure. -/
def fill {ε : Type} (render : Nat → Region → Except ε Text) (text : Text) (regions : List Region) :
    Except ε Text :=
  (regions.zipIdx.mapM fun (region, index) =>
      (render index region).map fun content => (region, content)).map (splice text 0)

end Injection

def inject (matcher : Matcher) (data : Fields) (render : Region → Text) (text : Text) :
    Traced Extraction.Error Text :=
  (extract matcher data text).map fun regions =>
    Injection.splice text 0 (regions.map fun region => (region, render region))

end Inlay
