import Inlay.Text.Basic

namespace Inlay.Json

/-- What was read from the front of a text, and the shorter text that follows. -/
structure Scanned (α : Type) (text : Text) where
  value : α
  rest : Text
  shorter : rest.length < text.length

namespace Scanned

variable {α β : Type} {text : Text}

def map (f : α → β) (scanned : Scanned α text) : Scanned β text :=
  ⟨f scanned.value, scanned.rest, scanned.shorter⟩

def within {inner : Text} (scanned : Scanned α inner) (bound : inner.length ≤ text.length) :
    Scanned α text :=
  ⟨scanned.value, scanned.rest, Nat.lt_of_lt_of_le scanned.shorter bound⟩

end Scanned

def isBlank (c : CodePoint) : Bool :=
  c = ' ' || c = '\t' || c = '\n' || c = '\r'

def skipBlanks (text : Text) : Text :=
  text.dropWhile isBlank

theorem length_skipBlanks_le (text : Text) : (skipBlanks text).length ≤ text.length :=
  (List.dropWhile_suffix isBlank).length_le

def mark? (text : Text) : Option (Scanned CodePoint text) :=
  match found : skipBlanks text with
  | [] => none
  | c :: rest => some ⟨c, rest, by
      have bound := length_skipBlanks_le text
      simp only [found, List.length_cons] at bound
      omega⟩

def named? {α : Type} (name : Text) (value : α) (text : Text) : Option (Scanned α text) :=
  match Text.after? name text with
  | none => none
  | some rest =>
      if shorter : rest.length < text.length then some ⟨value, rest, shorter⟩ else none

end Inlay.Json
