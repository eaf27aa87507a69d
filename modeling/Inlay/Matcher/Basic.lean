import Inlay.Text.Basic

/-!
A matcher knows the comment marker and the tag of directive lines. Such a line consists of
blanks, the marker, at least one blank, the tag, a colon and a body that ends with the line. The
marker and the tag may hold any characters, blanks and newlines included, so the parts can be
told apart in several ways; then the first blanks are as many as possible, and so are the second
ones.
-/

namespace Inlay

structure Matcher where
  marker : Text
  tag : Text
deriving DecidableEq

/-- The parts of a directive line: the leading blanks, what follows them, and the end of that. -/
structure DirectiveLine where
  padding : Text
  comment : Text
  body : Text
deriving DecidableEq

def DirectiveLine.text (line : DirectiveLine) : Text :=
  line.padding ++ line.comment

namespace Matcher

/-- Reads as many blanks as leave something that can be read after them. -/
def afterBlanks? {α : Type} (read? : Text → Option α) (text : Text) : Option (Text × α) :=
  match text with
  | [] => (read? []).map ([], ·)
  | c :: rest =>
      match if c.isBlank then afterBlanks? read? rest else none with
      | some (blanks, found) => some (c :: blanks, found)
      | none => (read? (c :: rest)).map ([], ·)

def afterGap? {α : Type} (read? : Text → Option α) (text : Text) : Option (Text × α) :=
  match text with
  | [] => none
  | c :: rest =>
      if c.isBlank then (afterBlanks? read? rest).map fun (blanks, found) => (c :: blanks, found)
      else none

/-- Reads the tag, the colon and the rest of the line, which must not be empty. -/
def body? (matcher : Matcher) (text : Text) : Option Text :=
  match Text.after? (matcher.tag ++ ":") text with
  | none => none
  | some rest => if rest.firstLine = [] then none else some rest.firstLine

def comment? (matcher : Matcher) (text : Text) : Option (Text × Text) :=
  match Text.after? matcher.marker text with
  | none => none
  | some rest =>
      (afterGap? matcher.body? rest).map fun (gap, body) =>
        (matcher.marker ++ gap ++ matcher.tag ++ ":" ++ body, body)

def line? (matcher : Matcher) (text : Text) : Option DirectiveLine :=
  (afterBlanks? matcher.comment? text).map fun (padding, comment, body) =>
    ⟨padding, comment, body⟩

theorem afterBlanks?_sound {α : Type} {read? : Text → Option α} {text blanks : Text} {found : α}
    (read : afterBlanks? read? text = some (blanks, found)) :
    ∃ rest, text = blanks ++ rest ∧ read? rest = some found ∧ ∀ c ∈ blanks, c.isBlank = true := by
  induction text generalizing blanks with
  | nil =>
      simp only [afterBlanks?, Option.map_eq_some_iff, Prod.mk.injEq] at read
      obtain ⟨_, here, rfl, rfl⟩ := read
      exact ⟨[], rfl, here, by simp⟩
  | cons c rest induction =>
      simp only [afterBlanks?] at read
      split at read
      · next further =>
          split at further
          · next blank =>
              simp only [Option.some.injEq, Prod.mk.injEq] at read
              obtain ⟨rfl, rfl⟩ := read
              obtain ⟨tail, same, here, blanks⟩ := induction further
              exact ⟨tail, by rw [same, List.cons_append], here, by simpa [blank] using blanks⟩
          · contradiction
      · simp only [Option.map_eq_some_iff, Prod.mk.injEq] at read
        obtain ⟨_, here, rfl, rfl⟩ := read
        exact ⟨c :: rest, rfl, here, by simp⟩

theorem body?_sound {matcher : Matcher} {text body : Text} (read : matcher.body? text = some body) :
    body ≠ [] ∧ ∃ rest, text = matcher.tag ++ ":" ++ rest ∧ rest.firstLine = body := by
  simp only [body?] at read
  split at read
  · contradiction
  · next rest found =>
      split at read
      · contradiction
      · next nonempty =>
          cases read
          exact ⟨nonempty, rest, Text.after?_eq_some_iff.mp found, rfl⟩

def standard : Matcher :=
  ⟨"//", "inj"⟩

inductive Fault where
  | emptyPart
deriving DecidableEq

def Fault.message : Fault → Text
  | .emptyPart => "Directive prefix and comment marker must not be empty"

/-- Replaces the given parts, whatever they are. -/
def override (defaults : Matcher) (tag marker : Option Text) : Matcher :=
  ⟨marker.getD defaults.marker, tag.getD defaults.tag⟩

/-- Replaces the given parts, which must not be empty. Empty defaults are not looked at. -/
def choose (defaults : Matcher) (tag marker : Option Text) : Except Fault Matcher :=
  if tag = some [] ∨ marker = some [] then .error .emptyPart
  else .ok (defaults.override tag marker)

def specialCharacters : Text :=
  "()[]\x7b\x7d?*+-|^$\\.&~# \t\n\r\x0b\x0c"

def escape (text : Text) : Text :=
  text.flatMap fun c => if c ∈ specialCharacters then ['\\', c] else [c]

def pattern (matcher : Matcher) : Text :=
  "^[ \\t]*(" ++ escape matcher.marker ++ "[ \\t]+" ++ escape matcher.tag ++ ":(.+))$"

end Matcher

end Inlay
