import Inlay.Double.Shortest
import Inlay.Text.Quoted
import Inlay.Value.Basic

namespace Inlay

mutual

def Value.isShort : Value → Bool
  | .int number => Text.isShort number
  | .arr items => Value.allShort items
  | .obj fields => Fields.isShort fields
  | _ => true
termination_by structural value => value

def Value.allShort : List Value → Bool
  | [] => true
  | value :: rest => value.isShort && Value.allShort rest
termination_by structural values => values

def Fields.isShort (fields : Fields) : Bool :=
  match fields with
  | [] => true
  | (_, value) :: rest => value.isShort && Fields.isShort rest
termination_by structural fields

end

mutual

def Value.display : Value → Text
  | .null => "None"
  | .bool true => "True"
  | .bool false => "False"
  | .int number => Text.ofInt number
  | .real number => number.text
  | .str text => text.quoted
  | .arr items => "[" ++ Text.join ", " (Value.displayAll items) ++ "]"
  | .obj fields => "\x7b" ++ Text.join ", " (Fields.displayAll fields) ++ "\x7d"
termination_by structural value => value

def Value.displayAll : List Value → List Text
  | [] => []
  | value :: rest => value.display :: Value.displayAll rest
termination_by structural values => values

def Fields.displayAll : List (Text × Value) → List Text
  | [] => []
  | (key, value) :: rest => (key.quoted ++ ": " ++ value.display) :: Fields.displayAll rest
termination_by structural fields => fields

end

end Inlay
