import Inlay.Text.Position

/-!
Why a text is not JSON. A reader looks only at the text that is still ahead of it, so a fault
says how many code points are left where it was noticed; the message counts from the beginning.
-/

namespace Inlay.Json

inductive Complaint where
  | byteOrderMark
  | missingValue
  | missingName
  | missingColon
  | missingComma
  | extraData
  | controlCharacter
  | unterminatedString
  | invalidEscape
  | invalidHexEscape
deriving DecidableEq

def Complaint.text : Complaint → Text
  | .byteOrderMark => "Unexpected UTF-8 BOM (decode using utf-8-sig)"
  | .missingValue => "Expecting value"
  | .missingName => "Expecting property name enclosed in double quotes"
  | .missingColon => "Expecting ':' delimiter"
  | .missingComma => "Expecting ',' delimiter"
  | .extraData => "Extra data"
  | .controlCharacter => "Invalid control character at"
  | .unterminatedString => "Unterminated string starting at"
  | .invalidEscape => "Invalid \\escape"
  | .invalidHexEscape => "Invalid \\uXXXX escape"

inductive Fault where
  | located (complaint : Complaint) (remaining : Nat)
  | constant (name : Text)
  | tooManyDigits (count : Nat)
deriving DecidableEq

def Fault.message (text : Text) : Fault → Text
  | .located complaint remaining =>
      let offset := text.length - remaining
      let position := Position.after (text.take offset)
      complaint.text ++ ": line " ++ Text.ofInt position.line ++
        " column " ++ Text.ofInt position.column ++ " (char " ++ Text.ofNat offset ++ ")"
  | .constant name => name ++ " is not a valid JSON value"
  | .tooManyDigits count =>
      Text.digitComplaint (": value has " ++ Text.ofNat count ++ " digits")

end Inlay.Json
