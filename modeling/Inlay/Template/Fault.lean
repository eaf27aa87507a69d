import Inlay.Text.Quoted

namespace Inlay.Template

inductive Fault where
  | singleOpening
  | singleClosing
  | openingInName
  | unclosedName
  | unclosedLayout
  | missingConversion
  | junkAfterConversion
  | unknownConversion (conversion : CodePoint)
  | unknownName (name : Text)
  | noPosition (index : Nat)
  | emptyStep
  | unclosedIndex
  | junkAfterIndex
  | unknownAttribute (name : Text)
  | indexNotANumber
  | indexOutOfRange
  | tooManyDigits
  | tooDeep
  | tooWide
  | missingPrecision
  | twoGroupings
  | groupingOfKind (grouping kind : CodePoint)
  | malformedLayout (layout : Text)
  | unknownKind (kind : CodePoint)
  | spaceForSign
  | sign
  | signOfZero
  | alternateForm
  | insideAlignment
deriving DecidableEq

namespace Fault

/-- Shows a visible ASCII character below a bound as it is, and any other by its number. -/
def shown (bound : Nat) (c : CodePoint) : Text :=
  if 0x20 < c.val ∧ c.val < bound then [c]
  else "\\x" ++ Text.hexadecimal (c.val.log2 / 4 + 1) c.val

def notForText (option : Text) : Text :=
  option ++ " not allowed in string format specifier"

def message : Fault → Text
  | singleOpening => "Single '\x7b' encountered in format string"
  | singleClosing => "Single '\x7d' encountered in format string"
  | openingInName => "unexpected '\x7b' in field name"
  | unclosedName => "expected '\x7d' before end of string"
  | unclosedLayout => "unmatched '\x7b' in format spec"
  | missingConversion => "end of string while looking for conversion specifier"
  | junkAfterConversion => "expected ':' after conversion specifier"
  | unknownConversion conversion => "Unknown conversion specifier " ++ shown 0x7F conversion
  | unknownName name => name.quoted
  | noPosition index =>
      "Replacement index " ++ Text.ofNat index ++ " out of range for positional args tuple"
  | emptyStep => "Empty attribute in format string"
  | unclosedIndex => "Missing ']' in format string"
  | junkAfterIndex => "Only '.' or '[' may follow ']' in format field specifier"
  | unknownAttribute name => "'str' object has no attribute '" ++ name ++ "'"
  | indexNotANumber => "string indices must be integers, not 'str'"
  | indexOutOfRange => "string index out of range"
  | tooManyDigits => "Too many decimal digits in format string"
  | tooDeep => "Max string recursion exceeded"
  | tooWide => ""
  | missingPrecision => "Format specifier missing precision"
  | twoGroupings => "Cannot specify both ',' and '_'."
  | groupingOfKind grouping kind =>
      "Cannot specify '" ++ [grouping] ++ "' with '" ++ shown 0x80 kind ++ "'."
  | malformedLayout layout =>
      "Invalid format specifier '" ++ layout ++ "' for object of type 'str'"
  | unknownKind kind =>
      "Unknown format code '" ++ shown 0x80 kind ++ "' for object of type 'str'"
  | spaceForSign => notForText "Space"
  | sign => notForText "Sign"
  | signOfZero => notForText "Negative zero coercion (z)"
  | alternateForm => notForText "Alternate form (#)"
  | insideAlignment => notForText "'=' alignment"

end Fault

end Inlay.Template
