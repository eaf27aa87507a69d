import Inlay.Directive.Kind
import Inlay.Directive.Parenthesis
import Inlay.Json.Reader
import Inlay.Text.Space

namespace Inlay

inductive Directive.Fault where
  | unknownName (name : Text)
  | missingArguments (kind : Kind)
  | unexpectedArguments (kind : Kind)
  | unclosedParenthesis (body : Text)
  | malformedArgument (source text : Text) (fault : Json.Fault)
  | notAnObject (kind : Kind)
deriving DecidableEq

def Directive.Fault.message : Directive.Fault → Text
  | .unknownName name => "Invalid directive type: " ++ name ++ "."
  | .missingArguments kind =>
      "Invalid directive. " ++ kind.label ++ " directive should have arguments."
  | .unexpectedArguments kind =>
      "Invalid directive. " ++ kind.label ++ " directive should not have arguments."
  | .unclosedParenthesis body => (Parenthesis.Fault.unclosed body).message
  | .malformedArgument source text fault =>
      "Invalid directive. Unable to parse directive argument \"" ++ source ++ "\": " ++
        fault.message text ++ "."
  | .notAnObject kind =>
      "Invalid " ++ kind.label ++ " directive. Argument should have an object type."

inductive Command where
  | beginBlock
  | endBlock
  | assign (fields : Fields)
  | merge (fields : Fields)
  | emit (arguments : List Value)

namespace Command

def kind : Command → Kind
  | beginBlock => .beginBlock
  | endBlock => .endBlock
  | assign _ => .assign
  | merge _ => .merge
  | emit _ => .emit

/-- Reads an argument as JSON. The message about a fault quotes `source`. -/
def readArgument (text source : Text) : Except Directive.Fault Value :=
  match Json.parse text with
  | .ok value => .ok value
  | .error fault => .error (.malformedArgument source text fault)

def readObject (kind : Kind) (text : Text) : Except Directive.Fault Fields :=
  match readArgument text text with
  | .ok (.obj fields) => .ok fields
  | .ok _ => .error (.notAnObject kind)
  | .error fault => .error fault

def readList (text : Text) : Except Directive.Fault (List Value) :=
  let array : Text := "[" ++ text ++ "]"
  match readArgument array array with
  | .ok (.arr items) => .ok items
  | .ok _ => .ok []
  | .error fault => .error fault

def ofArguments (kind : Kind) (text : Text) : Except Directive.Fault Command :=
  match kind with
  | .beginBlock | .endBlock => .error (.unexpectedArguments kind)
  | .assign => (readObject .assign text).map .assign
  | .merge => (readObject .merge text).map .merge
  | .emit => (readList text).map .emit

def ofBareName (name : Text) : Except Directive.Fault Command :=
  match Kind.ofName? name with
  | none => .error (.unknownName name)
  | some .beginBlock => .ok .beginBlock
  | some .endBlock => .ok .endBlock
  | some kind => .error (.missingArguments kind)

def ofCall (name call : Text) : Except Directive.Fault Command :=
  match Kind.ofName? name with
  | none => .error (.unknownName name)
  | some kind =>
      if kind.takesArguments then
        match Parenthesis.closing? .outside 0 call with
        | none => .error (.unclosedParenthesis (name ++ call))
        | some offset => ofArguments kind ((call.take offset).drop 1)
      else .error (.unexpectedArguments kind)

def opensArguments (c : CodePoint) : Bool :=
  c = '('

def parse (body : Text) : Except Directive.Fault Command :=
  let trimmed := body.trimEnd
  let name := trimmed.takeWhile (!opensArguments ·)
  let call := trimmed.dropWhile (!opensArguments ·)
  if call = [] then ofBareName name else ofCall name call

end Command

/-- A command together with the place of its line in the text and the blanks in front of it. -/
structure Directive where
  command : Command
  padding : Text
  start : Int
  stop : Int

def Directive.kind (directive : Directive) : Kind :=
  directive.command.kind

end Inlay
