import Inlay.Matcher.Basic
import Inlay.Value.Basic

namespace Inlay

structure Settings where
  matcher : Matcher
  verbosity : Int

namespace Settings

def default : Settings :=
  ⟨Matcher.standard, 0⟩

inductive Field where
  | tag
  | marker
  | verbosity
deriving DecidableEq

namespace Field

def all : List Field :=
  [tag, marker, verbosity]

def name : Field → Text
  | tag => "directive_prefix"
  | marker => "comment_marker"
  | verbosity => "verbosity"

def variableName (field : Field) : Text :=
  "incode_" ++ field.name

def ofName? (name : Text) : Option Field :=
  all.find? (·.name = name)

def ofVariable? (name : Text) : Option Field :=
  all.find? (·.variableName = name)

end Field

inductive Problem where
  | unknownName
  | notText
  | emptyOrSpaced
  | notUnicode
  | notANumber
  | notANumeral
  | tooLarge
  | notFinite
  | fractional
  | negative
deriving DecidableEq

namespace Problem

def code : Problem → Text
  | unknownName => "extra_forbidden"
  | notText => "string_type"
  | emptyOrSpaced => "value_error"
  | notUnicode => "string_unicode"
  | notANumber => "int_type"
  | notANumeral => "int_parsing"
  | tooLarge => "int_parsing_size"
  | notFinite => "finite_number"
  | fractional => "int_from_float"
  | negative => "greater_than_equal"

def message : Problem → Text
  | unknownName => "Extra inputs are not permitted"
  | notText => "Input should be a valid string"
  | emptyOrSpaced => "Value error, must be a non-empty string without whitespace"
  | notUnicode => "Input should be a valid string, unable to parse raw data as a unicode string"
  | notANumber => "Input should be a valid integer"
  | notANumeral => "Input should be a valid integer, unable to parse string as an integer"
  | tooLarge => "Unable to parse input string as an integer, exceeded maximum size"
  | notFinite => "Input should be a finite number"
  | fractional => "Input should be a valid integer, got a number with a fractional part"
  | negative => "Input should be greater than or equal to 0"

end Problem

end Settings

end Inlay
