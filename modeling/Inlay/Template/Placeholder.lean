import Inlay.Template.Layout

namespace Inlay.Template

structure Placeholder where
  path : Text
  conversion : Option CodePoint
  layout : Text
deriving DecidableEq

/-- Arguments have names. Of arguments with one name the last counts. -/
abbrev Arguments := List (Text × Text)

def Arguments.get? (arguments : Arguments) (name : Text) : Option Text :=
  (arguments.reverse.find? (·.1 = name)).map (·.2)

namespace Placeholder

def startsStep (c : CodePoint) : Bool :=
  c = '.' || c = '['

def endsIndex (c : CodePoint) : Bool :=
  c = ']'

/-- A number, or no name at all, asks for an argument by its position, and there are none. -/
def argument (arguments : Arguments) (name : Text) : Except Fault Text :=
  match wholeNumber name with
  | .error fault => .error fault
  | .ok (some index) => .error (.noPosition index)
  | .ok none =>
      if name = [] then .error (.noPosition 0)
      else
        match arguments.get? name with
        | some value => .ok value
        | none => .error (.unknownName name)

def characterAt (value index : Text) : Except Fault Text :=
  match wholeNumber index with
  | .error fault => .error fault
  | .ok (some number) =>
      match value[number]? with
      | some c => .ok [c]
      | none => .error .indexOutOfRange
  | .ok none => .error (if index = [] then .emptyStep else .indexNotANumber)

/-- Follows the steps of a path from a value. Texts have no attributes to go to. -/
def follow (value steps : Text) : Except Fault Text :=
  match steps with
  | [] => .ok value
  | c :: rest =>
      if c = '.' then
        let name := rest.takeWhile (!startsStep ·)
        .error (if name = [] then .emptyStep else .unknownAttribute name)
      else if c = '[' then
        match _ : rest.dropWhile (!endsIndex ·) with
        | [] => .error .unclosedIndex
        | _ :: more =>
            match characterAt value (rest.takeWhile (!endsIndex ·)) with
            | .ok character => follow character more
            | .error fault => .error fault
      else .error .junkAfterIndex
termination_by steps.length
decreasing_by
  have shorter := (List.dropWhile_suffix (!endsIndex ·) (l := rest)).length_le
  rw [‹rest.dropWhile (!endsIndex ·) = _›] at shorter
  simp only [List.length_cons] at shorter ⊢
  omega

def find (arguments : Arguments) (path : Text) : Except Fault Text :=
  (argument arguments (path.takeWhile (!startsStep ·))).bind
    (follow · (path.dropWhile (!startsStep ·)))

def convert (value : Text) : Option CodePoint → Except Fault Text
  | none => .ok value
  | some conversion =>
      if conversion = 's' ∨ conversion = '\x00' then .ok value
      else if conversion = 'r' then .ok value.quoted
      else if conversion = 'a' then .ok value.quotedAscii
      else .error (.unknownConversion conversion)

end Placeholder

end Inlay.Template
