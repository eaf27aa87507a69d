import Inlay.Settings.Numeral
import Inlay.Text.LowerCase
import Inlay.Value.Update

/-!
Where settings come from. Arguments go over variables of the environment, these over variables of a
file, and these over the defaults. A value that is overridden is not checked.
-/

namespace Inlay.Settings

/-- A marker or a tag is a text without white space, and not empty. -/
def checkPart : Value → Except Problem Text
  | .str text =>
      if text = [] ∨ text.any CodePoint.isSpace then .error .emptyOrSpaced else .ok text
  | _ => .error .notText

/-- The sizes of integers that are taken from floating point numbers stay below this bound. -/
def realBound : Nat :=
  0x8000000000000000

def integer : Value → Except Problem Int
  | .str text => integerOfText text
  | .int n => .ok n
  | .bool truth => .ok (if truth then 1 else 0)
  | .real x =>
      if x.isFinite then
        match x.toInt? with
        | some n => if n.natAbs < realBound then .ok n else .error .tooLarge
        | none => .error .fractional
      else .error .notFinite
  | .null | .arr _ | .obj _ => .error .notANumber

def checkVerbosity (value : Value) : Except Problem Int :=
  match integer value with
  | .ok n => if n < 0 then .error .negative else .ok n
  | .error problem => .error problem

structure Sources where
  arguments : List (Text × Value) := []
  environment : List (Text × Text) := []
  file : Text := []

namespace Sources

/-- Variables under their names in lower case. Of names that differ only in case the last one
counts. -/
def caseless (definitions : List (Text × Text)) : Fields :=
  let exact := Fields.ofMembers (definitions.map fun (name, value) => (name, .str value))
  Fields.ofMembers (exact.map fun (name, value) => (name.lowerCase, value))

def definition? (line : Text) : Option (Text × Text) :=
  let isEquals (c : CodePoint) : Bool := c = '='
  match line.dropWhile (!isEquals ·) with
  | [] => none
  | _ :: value => some (line.takeWhile (!isEquals ·), value)

def known (entries : Fields) : Fields :=
  entries.filterMap fun (name, value) =>
    (Field.ofVariable? name).map fun field => (field.name, value)

/-- Other variables of a file. Empty ones and bare names of settings are passed over. -/
def unknown (entries : Fields) : Fields :=
  entries.filter fun (name, value) =>
    (Field.ofVariable? name).isNone && (Field.ofName? name).isNone &&
      match value with
      | .str [] => false
      | _ => true

/-- Arguments under the names of the settings, whose letter case does not matter. Of several
spellings of one name the first counts. -/
def named (arguments : Fields) : Fields :=
  let renamed := arguments.map fun (name, value) =>
    match Field.ofName? name.lowerCase with
    | some field => (field.name, value)
    | none => (name, value)
  renamed.eraseDupsBy fun later earlier => later.1 = earlier.1

def given (sources : Sources) : Fields :=
  let fromFile := caseless (sources.file.lines.filterMap definition?)
  let fromEnvironment := known (caseless sources.environment)
  ((known fromFile ++ unknown fromFile).overlay fromEnvironment).overlay
    (named (Fields.ofMembers sources.arguments))

end Sources

/-- A value that is given, or else the default, which needs no check. -/
def choose {α : Type} (given : Fields) (field : Field) (fallback : α)
    (check : Value → Except Problem α) : Except Problem α :=
  match given.get? field.name with
  | some value => check value
  | none => .ok fallback

def problem {α : Type} (field : Field) : Except Problem α → List (Text × Problem)
  | .ok _ => []
  | .error problem => [(field.name, problem)]

def load (sources : Sources) : Except (List (Text × Problem)) Settings :=
  let given := sources.given
  let tag := choose given .tag default.matcher.tag checkPart
  let marker := choose given .marker default.matcher.marker checkPart
  let verbosity := choose given .verbosity default.verbosity checkVerbosity
  let unknown := (given.keys.filter fun name => (Field.ofName? name).isNone).map fun name =>
    (name, Problem.unknownName)
  match tag, marker, verbosity, unknown with
  | .ok tag, .ok marker, .ok verbosity, [] => .ok ⟨⟨marker, tag⟩, verbosity⟩
  | _, _, _, _ =>
      .error (problem .tag tag ++ problem .marker marker ++ problem .verbosity verbosity ++ unknown)

end Inlay.Settings
