import Inlay.Directive.Command
import Inlay.Scope.Event
import Inlay.Value.Update

/-!
The walk over the directives of a text. The text itself is the outermost scope. A block that begins
inherits the data of the scope around it, and what is changed inside is forgotten when it ends. An
emitting directive must be followed by the end of its region at once. An end outside of all blocks
stops the walk, and whatever follows is not looked at.
-/

namespace Inlay.Scope

inductive Cause where
  | unclosedScope
  | unclosedRegion
  | directiveInRegion
deriving DecidableEq

def Cause.reason : Cause → Text
  | .unclosedScope => "All scopes should end with End directive."
  | .unclosedRegion => "Emit region should end with End directive."
  | .directiveInRegion => "Emit region should not contain any directives."

structure Fault where
  cause : Cause
  offset : Int
deriving DecidableEq

/-- An open block: the directive that began it, and the data around it. -/
structure Frame where
  opener : Directive
  outerData : Fields

def region (emitter : Directive) (arguments : List Value) (data : Fields) (closer : Directive) :
    Region :=
  ⟨arguments, data, emitter.padding, emitter.stop, closer.start⟩

/-- Walks on with the data of the innermost scope and the open blocks, innermost first. -/
def walk (data : Fields) (frames : List Frame) : List Directive → Traced Fault Unit
  | [] =>
      match frames with
      | [] => .ok ()
      | frame :: _ => .fail ⟨.unclosedScope, frame.opener.start⟩
  | directive :: rest =>
      match directive.command with
      | .beginBlock =>
          (walk data (⟨directive, data⟩ :: frames) rest).after (.opened (frames.length + 1))
      | .endBlock =>
          match frames with
          | [] => (Traced.ok ()).after (.stopped directive.start)
          | frame :: outer => (walk frame.outerData outer rest).after (.closed outer.length)
      | .assign fields =>
          let data := data.overlay fields
          (walk data frames rest).after (.assigned data)
      | .merge fields =>
          let data := data.merge fields
          (walk data frames rest).after (.merged data)
      | .emit arguments =>
          match rest with
          | [] => .fail ⟨.unclosedRegion, directive.start⟩
          | closer :: rest =>
              match closer.command with
              | .endBlock =>
                  (walk data frames rest).after (.region (region directive arguments data closer))
              | _ => .fail ⟨.directiveInRegion, closer.start⟩

end Inlay.Scope
