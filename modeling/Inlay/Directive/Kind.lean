import Inlay.Text.Basic

namespace Inlay

/-- The five directives: two delimit a block, two update the data of a scope, and one opens a
region. -/
inductive Kind where
  | beginBlock
  | endBlock
  | assign
  | merge
  | emit
deriving DecidableEq

namespace Kind

def all : List Kind :=
  [beginBlock, endBlock, assign, merge, emit]

def name : Kind → Text
  | beginBlock => "begin"
  | endBlock => "end"
  | assign => "assign"
  | merge => "merge"
  | emit => "emit"

def label : Kind → Text
  | beginBlock => "Begin"
  | endBlock => "End"
  | assign => "Assign"
  | merge => "Merge"
  | emit => "Emit"

def takesArguments : Kind → Bool
  | beginBlock | endBlock => false
  | assign | merge | emit => true

def ofName? (name : Text) : Option Kind :=
  all.find? (·.name = name)

@[simp] theorem ofName?_name (kind : Kind) : ofName? kind.name = some kind := by
  cases kind <;> decide

theorem name_of_ofName? {name : Text} {kind : Kind} (found : ofName? name = some kind) :
    kind.name = name := by
  simpa using List.find?_some found

end Kind

end Inlay
