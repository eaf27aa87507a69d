import Inlay.Scope.Walk
import Inlay.Text.Position

namespace Inlay

inductive Category where
  | source
  | directive
  | region
deriving DecidableEq

structure Diagnostic where
  category : Category
  reason : Text
  position : Option Position
deriving DecidableEq

def Diagnostic.message (diagnostic : Diagnostic) : Text :=
  match diagnostic.position with
  | some position => position.text ++ " " ++ diagnostic.reason
  | none => diagnostic.reason

namespace Extraction

/-- Why an extraction fails: the first line that is not a directive, a fault in the structure of the
directives, a fault whose own place does not lie in the text, or a message about a number with too
many digits. -/
inductive Error where
  | directive (fault : Directive.Fault) (position : Position)
  | region (cause : Scope.Cause) (position : Position)
  | offset (fault : OffsetFault)
  | digits
deriving DecidableEq

namespace Error

def locate (text : Text) (offset : Int) (error : Position → Error) : Error :=
  match Position.ofOffset text offset with
  | .ok position => error position
  | .error fault => .offset fault

def ofScope (text : Text) (fault : Scope.Fault) : Error :=
  locate text fault.offset (.region fault.cause)

def diagnostic : Error → Except Text Diagnostic
  | directive fault position => .ok ⟨.directive, fault.message, position⟩
  | region cause position => .ok ⟨.region, cause.reason, position⟩
  | offset fault => .error fault.message
  | digits => .error (Text.digitComplaint [])

def message (error : Error) : Text :=
  match error.diagnostic with
  | .ok diagnostic => diagnostic.message
  | .error message => message

end Error

end Extraction

end Inlay
