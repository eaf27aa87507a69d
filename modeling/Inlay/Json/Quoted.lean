import Inlay.Json.Fault
import Inlay.Json.Scanned

namespace Inlay.Json

/-- The code point of four hexadecimal digits, which must not be the last of the text. -/
def hexEscape? (text : Text) : Option (Scanned CodePoint text) :=
  match text with
  | a :: b :: c :: d :: next :: rest =>
      match a.hexValue?, b.hexValue?, c.hexValue?, d.hexValue? with
      | some a, some b, some c, some d =>
          some ⟨⟨a.val * 0x1000 + b.val * 0x100 + c.val * 0x10 + d.val, by omega⟩, next :: rest, by
            simp only [List.length_cons]
            omega⟩
      | _, _, _, _ => none
  | _ => none

def simpleEscape? (c : CodePoint) : Option CodePoint :=
  if c = '"' then some '"'
  else if c = '\\' then some '\\'
  else if c = '/' then some '/'
  else if c = 'b' then some '\x08'
  else if c = 'f' then some '\x0c'
  else if c = 'n' then some '\n'
  else if c = 'r' then some '\r'
  else if c = 't' then some '\t'
  else none

/-- The code point of a hexadecimal escape, read after its letter. An escaped high surrogate
joins an escaped low surrogate that follows it; any other surrogate stands for itself. -/
def unicodeEscape (text : Text) : Except Fault (Scanned CodePoint text) :=
  match hexEscape? text with
  | none => .error (.located .invalidHexEscape (text.length + 1))
  | some first =>
      if first.value.isHighSurrogate then
        match named? "\\u" () first.rest with
        | none => .ok first
        | some escape =>
            match hexEscape? escape.rest with
            | none => .error (.located .invalidHexEscape (escape.rest.length + 1))
            | some second =>
                if second.value.isLowSurrogate then
                  .ok ⟨.ofSurrogates first.value second.value, second.rest,
                    Nat.lt_trans second.shorter (Nat.lt_trans escape.shorter first.shorter)⟩
                else .ok first
      else .ok first

def character (opening : Nat) (text : Text) : Except Fault (Scanned CodePoint text) :=
  match text with
  | [] => .error (.located .unterminatedString opening)
  | c :: rest =>
      if c = '\\' then
        match rest with
        | [] => .error (.located .unterminatedString opening)
        | e :: rest =>
            if e = 'u' then
              (unicodeEscape rest).map (·.within (by simp only [List.length_cons]; omega))
            else
              match simpleEscape? e with
              | some value => .ok ⟨value, rest, by simp only [List.length_cons]; omega⟩
              | none => .error (.located .invalidEscape (rest.length + 2))
      else if c.val < 0x20 then .error (.located .controlCharacter (rest.length + 1))
      else .ok ⟨c, rest, by simp only [List.length_cons]; omega⟩

/-- The rest of a string literal whose opening quote had `opening` code points left. -/
def quoted (opening : Nat) (text : Text) : Except Fault (Scanned Text text) :=
  match text with
  | [] => .error (.located .unterminatedString opening)
  | c :: rest =>
      if c = '"' then .ok ⟨[], rest, by simp only [List.length_cons]; omega⟩
      else
        match character opening (c :: rest) with
        | .error fault => .error fault
        | .ok first =>
            match quoted opening first.rest with
            | .error fault => .error fault
            | .ok more =>
                .ok ⟨first.value :: more.value, more.rest, Nat.lt_trans more.shorter first.shorter⟩
termination_by text.length
decreasing_by exact first.shorter

end Inlay.Json
