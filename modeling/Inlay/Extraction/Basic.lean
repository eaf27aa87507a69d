import Inlay.Extraction.Error
import Inlay.Matcher.Occurrence

/-!
The extraction of regions in two stages: the first reads the directives of the text, the second
finds the regions that they delimit. Stages can be run in any order and number; each sees what
earlier ones left.
-/

namespace Inlay

def Scope.resolve (text : Text) (data : Fields) (directives : List Directive) :
    Traced Extraction.Error Unit :=
  ((walk data [] directives).mapError (.ofScope text)).written text .digits

/-- A resolver keeps the regions of all its runs. Each run walks over the same directives from the
same data, and a run that fails leaves the regions that it completed. -/
structure Resolver where
  text : Text
  directives : List Directive
  data : Fields
  regions : List Region := []

/-- One more run: the resolver after it, and all the regions it then has, or the error. -/
def Resolver.resolve (resolver : Resolver) : Resolver × Except Extraction.Error (List Region) :=
  let run := Scope.resolve resolver.text resolver.data resolver.directives
  let regions := resolver.regions ++ run.regions
  ({ resolver with regions }, run.outcome.map fun _ => regions)

structure Extraction where
  text : Text
  matcher : Matcher
  data : Fields
  directives : List Directive := []
  regions : List Region := []

namespace Extraction

def directive (occurrence : Occurrence) (command : Command) : Directive :=
  ⟨command, occurrence.padding, occurrence.start, occurrence.stop⟩

/-- Reads the directives of occurrences up to the first one that is at fault. -/
def readDirectives (text : Text) : List Occurrence → Traced Error (List Directive)
  | [] => .ok []
  | occurrence :: rest =>
      match Command.parse occurrence.body with
      | .error fault => .fail (.locate text occurrence.start (.directive fault))
      | .ok command =>
          ((readDirectives text rest).map (directive occurrence command :: ·)).after
            (.directive command.kind occurrence.start)

def directivesOf (matcher : Matcher) (text : Text) : Traced Error (List Directive) :=
  readDirectives text (matcher.occurrences text)

def regionsOf (text : Text) (data : Fields) (directives : List Directive) :
    Traced Error (List Region) :=
  let run := Scope.resolve text data directives
  run.map fun _ => run.regions

inductive Stage where
  | directives
  | regions
deriving DecidableEq

def Stage.run (stage : Stage) (state : Extraction) : Traced Error Extraction :=
  match stage with
  | .directives =>
      (directivesOf state.matcher state.text).andThen fun directives =>
        (Traced.ok { state with directives }).after (.directives directives.length)
  | .regions =>
      (regionsOf state.text state.data state.directives).andThen fun regions =>
        (Traced.ok { state with regions }).after (.regions regions.length)

def runStages (state : Extraction) : List Stage → Traced Error Extraction
  | [] => .ok state
  | stage :: stages => (stage.run state).andThen fun next => next.runStages stages

inductive DataFault where
  | bool
  | int
  | real
  | str
  | arr
deriving DecidableEq

def DataFault.typeName : DataFault → Text
  | .bool => "bool"
  | .int => "int"
  | .real => "float"
  | .str => "str"
  | .arr => "list"

def DataFault.message (fault : DataFault) : Text :=
  "Initial data should be a mapping, got " ++ fault.typeName

/-- A null stands for no fields. -/
def initialData : Value → Except DataFault Fields
  | .null => .ok []
  | .obj fields => .ok fields
  | .bool _ => .error .bool
  | .int _ => .error .int
  | .real _ => .error .real
  | .str _ => .error .str
  | .arr _ => .error .arr

end Extraction

def extract (matcher : Matcher) (data : Fields) (text : Text) :
    Traced Extraction.Error (List Region) :=
  (Extraction.runStages { text, matcher, data } [.directives, .regions]).map (·.regions)

end Inlay
