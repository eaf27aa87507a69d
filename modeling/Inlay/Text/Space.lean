import Inlay.Text.Basic

namespace Inlay

namespace CodePoint

/-- The Unicode property `White_Space`. -/
def isWhiteSpace (c : CodePoint) : Bool :=
  (0x09 ≤ c.val && c.val ≤ 0x0D) || c.val == 0x20 ||
    c.val == 0x85 || c.val == 0xA0 || c.val == 0x1680 ||
    (0x2000 ≤ c.val && c.val ≤ 0x200A) || c.val == 0x2028 || c.val == 0x2029 ||
    c.val == 0x202F || c.val == 0x205F || c.val == 0x3000

/-- White space or one of the separators of files, groups, records and units. -/
def isSpace (c : CodePoint) : Bool :=
  c.isWhiteSpace || (0x1C ≤ c.val && c.val ≤ 0x1F)

theorem isSpace_of_isBlank {c : CodePoint} (blank : c.isBlank = true) :
    c.isSpace = true := by
  simp only [isBlank, Bool.or_eq_true, decide_eq_true_eq] at blank
  rcases blank with rfl | rfl <;> rfl

end CodePoint

namespace Text

def trimEnd (text : Text) : Text :=
  (text.reverse.dropWhile CodePoint.isSpace).reverse

/-- The text without the white space at its ends. Separators stay. -/
def trim (text : Text) : Text :=
  ((text.dropWhile CodePoint.isWhiteSpace).reverse.dropWhile CodePoint.isWhiteSpace).reverse

end Text

end Inlay
