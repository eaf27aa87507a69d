import Inlay.Matcher.Basic

namespace Inlay

structure Occurrence extends DirectiveLine where
  start : Nat
deriving DecidableEq

def Occurrence.stop (occurrence : Occurrence) : Nat :=
  occurrence.start + occurrence.text.length

namespace Matcher

/-- Looks for directive lines in the text that lies at `offset`. The first `skip` characters
belong to an earlier occurrence. -/
def occurrencesFrom (matcher : Matcher) (lineStart : Bool) (skip offset : Nat) :
    Text → List Occurrence
  | [] => []
  | c :: rest =>
      let found := if lineStart ∧ skip = 0 then matcher.line? (c :: rest) else none
      match found with
      | some line =>
          { line with start := offset } ::
            matcher.occurrencesFrom (c = .newline) (line.text.length - 1) (offset + 1) rest
      | none => matcher.occurrencesFrom (c = .newline) (skip - 1) (offset + 1) rest

def occurrences (matcher : Matcher) (text : Text) : List Occurrence :=
  matcher.occurrencesFrom true 0 0 text

end Matcher

end Inlay
