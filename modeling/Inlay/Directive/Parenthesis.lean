import Inlay.Text.Basic

/-!
Finding the parenthesis that closes an argument list. Parentheses inside a string literal do not
count; a literal runs from a double quote to the next one that no backslash escapes.
-/

namespace Inlay

inductive Quoting where
  | outside
  | inside
  | escaped
deriving DecidableEq

def Quoting.next : Quoting → CodePoint → Quoting
  | .outside, c => if c = '"' then .inside else .outside
  | .inside, c => if c = '\\' then .escaped else if c = '"' then .outside else .inside
  | .escaped, _ => .inside

namespace Parenthesis

/-- How far a character outside of literals changes the depth. -/
def weight (c : CodePoint) : Int :=
  if c = '(' then 1 else if c = ')' then -1 else 0

/-- The offset of the first closing parenthesis that brings the depth to zero. -/
def closing? (quoting : Quoting) (depth : Int) : Text → Option Nat
  | [] => none
  | c :: rest =>
      let depth := if quoting = .outside then depth + weight c else depth
      if quoting = .outside ∧ c = ')' ∧ depth = 0 then some 0
      else (closing? (quoting.next c) depth rest).map (· + 1)

inductive Fault where
  | outOfRange
  | unclosed (body : Text)
deriving DecidableEq

def Fault.message : Fault → Text
  | .outOfRange => "string index out of range"
  | .unclosed body =>
      "Invalid directive. Unable to find closing parenthesis in a directive \"" ++ body ++ "\"."

/-- The text that a scan from an index passes. A negative index counts from the end of the body, and
the scan then goes on through the whole of it. -/
def scanned (body : Text) (start : Int) : Text :=
  if 0 ≤ start then body.drop start.toNat
  else body.drop (body.length - (-start).toNat) ++ body

def find (body : Text) (start : Int) : Except Fault Int :=
  if start < -body.length then .error .outOfRange
  else
    match closing? .outside 0 (scanned body start) with
    | some offset => .ok (start + offset)
    | none => .error (.unclosed body)

end Parenthesis

end Inlay
