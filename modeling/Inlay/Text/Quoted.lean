import Inlay.Text.Numeral
import Inlay.Text.Printable

/-!
Texts in quotes, as messages show them. Single quotes are used unless the text holds one and no
double quote. Backslashes, the quotes in use and unprintable characters are escaped.
-/

namespace Inlay.Text

def escapeByNumber (c : CodePoint) : Text :=
  if c.val < 0x100 then "\\x" ++ hexadecimal 2 c.val
  else if c.val < 0x10000 then "\\u" ++ hexadecimal 4 c.val
  else "\\U" ++ hexadecimal 8 c.val

def escapeCharacter (quote c : CodePoint) : Text :=
  if c = quote ∨ c = '\\' then ['\\', c]
  else if c = '\n' then "\\n"
  else if c = '\r' then "\\r"
  else if c = '\t' then "\\t"
  else if c.isPrintable then [c]
  else escapeByNumber c

def quoteFor (text : Text) : CodePoint :=
  let single : CodePoint := '\x27'
  let double : CodePoint := '"'
  if single ∈ text ∧ double ∉ text then double else single

def quoted (text : Text) : Text :=
  let quote := quoteFor text
  quote :: text.flatMap (escapeCharacter quote) ++ [quote]

/-- A text in quotes in which characters outside ASCII are escaped too. -/
def quotedAscii (text : Text) : Text :=
  text.quoted.flatMap fun c => if c.val < 0x80 then [c] else escapeByNumber c

end Inlay.Text
