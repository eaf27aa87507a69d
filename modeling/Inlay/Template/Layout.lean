import Inlay.Template.Fault

namespace Inlay.Template

/-- Numbers in templates are written in decimal digits of any script and are bounded. -/
def largestNumber : Nat :=
  0x7FFFFFFFFFFFFFFF

def numberFrom (number : Nat) : Text → Except Fault (Nat × Text)
  | [] => .ok (number, [])
  | c :: rest =>
      match c.decimalValue? with
      | none => .ok (number, c :: rest)
      | some digit =>
          if largestNumber < 10 * number + digit then .error .tooManyDigits
          else numberFrom (10 * number + digit) rest

def readNumber (text : Text) : Except Fault (Option Nat × Text) :=
  (numberFrom 0 text).map fun (number, rest) =>
    (if rest.length < text.length then some number else none, rest)

def wholeNumber (text : Text) : Except Fault (Option Nat) :=
  (readNumber text).map fun (number, rest) => if rest = [] then number else none

inductive Alignment where
  | left
  | right
  | center
  | inside
deriving DecidableEq

def Alignment.ofCodePoint? (c : CodePoint) : Option Alignment :=
  if c = '<' then some .left
  else if c = '>' then some .right
  else if c = '^' then some .center
  else if c = '=' then some .inside
  else none

structure Layout where
  fill : CodePoint
  alignment : Alignment
  width : Nat
  precision : Option Nat

namespace Layout

def readAlignment : Text → Option CodePoint × Option Alignment × Text
  | [] => (none, none, [])
  | [c] =>
      match Alignment.ofCodePoint? c with
      | some alignment => (none, some alignment, [])
      | none => (none, none, [c])
  | c :: d :: rest =>
      match Alignment.ofCodePoint? d, Alignment.ofCodePoint? c with
      | some alignment, _ => (some c, some alignment, rest)
      | none, some alignment => (none, some alignment, d :: rest)
      | none, none => (none, none, c :: d :: rest)

def readOneOf (characters : Text) : Text → Option CodePoint × Text
  | [] => (none, [])
  | c :: rest => if c ∈ characters then (some c, rest) else (none, c :: rest)

def readGrouping (text : Text) : Except Fault (Option CodePoint × Text) :=
  match readOneOf "," text with
  | (some comma, rest) =>
      if (readOneOf "_" rest).1.isSome then .error .twoGroupings else .ok (some comma, rest)
  | (none, _) =>
      match readOneOf "_" text with
      | (some underscore, rest) =>
          if (readOneOf "," rest).1.isSome then .error .twoGroupings
          else .ok (some underscore, rest)
      | (none, _) => .ok (none, text)

def readPrecision (text : Text) : Except Fault (Option Nat × Text) :=
  match readOneOf "." text with
  | (none, _) => .ok (none, text)
  | (some _, rest) =>
      match readNumber rest with
      | .error fault => .error fault
      | .ok (none, _) => .error .missingPrecision
      | .ok (some precision, rest) => .ok (some precision, rest)

def textKind : CodePoint := 's'

def groups (grouping kind : CodePoint) : Bool :=
  kind ∈ Text.ofString "defgEG%F\x00" || (grouping = '_' && kind ∈ Text.ofString "boxX")

def check (sign : Option CodePoint) (signOfZero alternate : Bool) (grouping : Option CodePoint)
    (kind : CodePoint) (alignment : Alignment) : Except Fault Unit :=
  match grouping.filter fun mark => !groups mark kind with
  | some mark => .error (.groupingOfKind mark kind)
  | none =>
      if kind ≠ textKind then .error (.unknownKind kind)
      else if sign = some (CodePoint.ofChar ' ') then .error .spaceForSign
      else if sign.isSome then .error .sign
      else if signOfZero then .error .signOfZero
      else if alternate then .error .alternateForm
      else if alignment = .inside then .error .insideAlignment
      else .ok ()

def read (text : Text) : Except Fault Layout := do
  let (fill, alignment, rest) := readAlignment text
  let (sign, rest) := readOneOf " +-" rest
  let (signOfZero, rest) := readOneOf "z" rest
  let (alternate, rest) := readOneOf "#" rest
  let (zero, rest) := if fill.isSome then (none, rest) else readOneOf "0" rest
  let (width, rest) ← readNumber rest
  let (grouping, rest) ← readGrouping rest
  let (precision, rest) ← readPrecision rest
  let kind ← match rest with
    | [] => .ok textKind
    | [kind] => .ok kind
    | _ => .error (.malformedLayout text)
  let alignment := alignment.getD .left
  check sign signOfZero.isSome alternate.isSome grouping kind alignment
  return ⟨(fill.or zero).getD ' ', alignment, width.getD 0, precision⟩

/-- No text is as wide as this. -/
def unreachableWidth : Nat :=
  0x40000000

def apply (layout : Layout) (text : Text) : Except Fault Text :=
  let text := (layout.precision.map text.take).getD text
  let missing := layout.width - text.length
  let before :=
    match layout.alignment with
    | .left => 0
    | .right | .inside => missing
    | .center => missing / 2
  if unreachableWidth ≤ missing then .error .tooWide
  else
    .ok (List.replicate before layout.fill ++ text ++
      List.replicate (missing - before) layout.fill)

end Layout

/-- Lays a text out as a layout says. The empty layout leaves it alone. -/
def layOut (layout text : Text) : Except Fault Text :=
  if layout = [] then .ok text else (Layout.read layout).bind (·.apply text)

end Inlay.Template
