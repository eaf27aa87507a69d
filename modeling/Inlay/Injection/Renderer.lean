import Inlay.Injection.Basic
import Inlay.Text.Numeral

namespace Inlay

inductive Renderer where
  | const (text : Text)
  | content
  | sequence (texts : List Text)
  | argument (index : Int)
  | field (key : Text)
  | lines (lines : List Text)
  | summary
  | failing (index : Int) (message : Text)

namespace Renderer

/-- A string stands for its text, and any other value for the empty text. -/
def ofValue? : Option Value → Text
  | some (.str text) => text
  | _ => []

def argumentAt? (arguments : List Value) (index : Int) : Option Value :=
  if 0 ≤ index then arguments[index.toNat]? else none

def summaryOf (region : Region) : Text :=
  region.padding ++ Text.ofNat region.arguments.length ++ " args; keys " ++
    Text.join "," region.data.keys ++ "; was " ++ Text.ofInt (region.stop - region.start)

def render (renderer : Renderer) (source : Text) (number : Nat) (region : Region) :
    Except Text Text :=
  let content := source.slice region.start region.stop
  match renderer with
  | .const text => .ok text
  | .content => .ok content
  | .sequence texts => .ok (texts[number % texts.length]?.getD [])
  | .argument index => .ok (ofValue? (argumentAt? region.arguments index))
  | .field key => .ok (ofValue? (region.data.get? key))
  | .lines texts => .ok (Text.join [.newline] (texts.map (region.padding ++ ·)))
  | .summary => .ok (summaryOf region)
  | .failing index message => if index = number then .error message else .ok content

end Renderer

end Inlay
