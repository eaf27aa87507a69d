import Inlay.Template.Placeholder

/-!
Templates of messages. A placeholder in braces is replaced by the argument that it names, and a
doubled brace stands for a single one. The layout of a placeholder can hold placeholders in turn.
-/

namespace Inlay.Template

/-- A piece of a template. A fault in its form comes last and matters only when all pieces before it
are filled in. -/
inductive Piece where
  | character (c : CodePoint)
  | placeholder (placeholder : Placeholder)
  | fault (fault : Fault)

def isOpening (c : CodePoint) : Bool :=
  c = '\x7b'

def isClosing (c : CodePoint) : Bool :=
  c = '\x7d'

/-- Where the reading of a template stands: in plain text, or in the parts of a placeholder. A brace
inside an index belongs to it, and a layout counts the braces that are open. -/
inductive State where
  | plain
  | path (read : Text)
  | index (read : Text)
  | conversion (path : Text)
  | converted (path : Text) (conversion : CodePoint)
  | layout (path : Text) (conversion : Option CodePoint) (read : Text) (inner : Nat)

def pieces : State → Text → List Piece
  | .plain, [] => []
  | .plain, [c] =>
      if isOpening c then [.fault .singleOpening]
      else if isClosing c then [.fault .singleClosing]
      else [.character c]
  | .plain, c :: d :: rest =>
      if isOpening c then
        if isOpening d then .character c :: pieces .plain rest
        else pieces (.path []) (d :: rest)
      else if isClosing c then
        if isClosing d then .character c :: pieces .plain rest
        else [.fault .singleClosing]
      else .character c :: pieces .plain (d :: rest)
  | .path _, [] => [.fault .unclosedName]
  | .path read, c :: rest =>
      if isOpening c then [.fault .openingInName]
      else if isClosing c then .placeholder ⟨read, none, []⟩ :: pieces .plain rest
      else if c = ':' then pieces (.layout read none [] 0) rest
      else if c = '!' then pieces (.conversion read) rest
      else if c = '[' then pieces (.index (read ++ [c])) rest
      else pieces (.path (read ++ [c])) rest
  | .index _, [] => [.fault .unclosedName]
  | .index read, c :: rest =>
      if c = ']' then pieces (.path (read ++ [c])) rest
      else pieces (.index (read ++ [c])) rest
  | .conversion _, [] => [.fault .missingConversion]
  | .conversion path, c :: rest => pieces (.converted path c) rest
  | .converted _ _, [] => [.fault .unclosedLayout]
  | .converted path conversion, c :: rest =>
      if isClosing c then .placeholder ⟨path, some conversion, []⟩ :: pieces .plain rest
      else if c = ':' then pieces (.layout path (some conversion) [] 0) rest
      else [.fault .junkAfterConversion]
  | .layout _ _ _ _, [] => [.fault .unclosedLayout]
  | .layout path conversion read inner, c :: rest =>
      if isOpening c then pieces (.layout path conversion (read ++ [c]) (inner + 1)) rest
      else if isClosing c then
        match inner with
        | 0 => .placeholder ⟨path, conversion, read⟩ :: pieces .plain rest
        | inner + 1 => pieces (.layout path conversion (read ++ [c]) inner) rest
      else pieces (.layout path conversion (read ++ [c]) inner) rest

/-- Fills in a template whose layouts are nested less deeply than a bound. -/
def fillWithin (arguments : Arguments) : Nat → Text → Except Fault Text
  | 0, _ => .error .tooDeep
  | depth + 1, template => do
      let parts ← (pieces .plain template).mapM fun
        | .character c => .ok [c]
        | .fault fault => .error fault
        | .placeholder placeholder => do
            let found ← Placeholder.find arguments placeholder.path
            let value ← Placeholder.convert found placeholder.conversion
            let layout ←
              if placeholder.layout.any isOpening then
                fillWithin arguments depth placeholder.layout
              else .ok placeholder.layout
            layOut layout value
      return parts.flatten

/-- Fills in a template. Its layouts may hold placeholders, and those have plain layouts. -/
def fill (template : Text) (arguments : Arguments) : Except Fault Text :=
  fillWithin arguments 2 template

end Inlay.Template
