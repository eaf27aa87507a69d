import Inlay.Double.Basic
import Inlay.Text.Basic

namespace Inlay

inductive Value where
  | null
  | bool (truth : Bool)
  | int (number : Int)
  | real (number : Double)
  | str (text : Text)
  | arr (items : List Value)
  | obj (fields : List (Text × Value))

abbrev Fields := List (Text × Value)

namespace Fields

def keys (fields : Fields) : List Text :=
  fields.map Prod.fst

def get? : Fields → Text → Option Value
  | [], _ => none
  | (name, value) :: rest, key => if name = key then some value else get? rest key

/-- A known key keeps its place, a new one goes last. -/
def insert : Fields → Text → Value → Fields
  | [], key, value => [(key, value)]
  | (name, old) :: rest, key, value =>
      if name = key then (name, value) :: rest else (name, old) :: insert rest key value

@[simp] theorem get?_insert_self (fields : Fields) (key : Text) (value : Value) :
    (fields.insert key value).get? key = some value := by
  fun_induction insert fields key value with
  | case1 => simp [get?]
  | case2 => simp [get?]
  | case3 name old rest key value different induction => simp [get?, different, induction]

theorem get?_insert_of_ne (fields : Fields) {key other : Text} (value : Value)
    (different : key ≠ other) : (fields.insert key value).get? other = fields.get? other := by
  fun_induction insert fields key value with
  | case1 => simp [get?, different]
  | case2 => simp [get?, different]
  | case3 name old rest key value _ induction => simp [get?, induction different]

theorem keys_insert (fields : Fields) (key : Text) (value : Value) :
    (fields.insert key value).keys =
      if key ∈ fields.keys then fields.keys else fields.keys ++ [key] := by
  fun_induction insert fields key value with
  | case1 => simp [keys]
  | case2 => simp [keys]
  | case3 name old rest key value different induction =>
      simp only [keys, List.map_cons, List.mem_cons] at induction ⊢
      rw [induction]
      by_cases known : key ∈ rest.map Prod.fst <;> simp [known, Ne.symm different]

end Fields

mutual

def Value.WellFormed : Value → Prop
  | .arr items => Value.AllWellFormed items
  | .obj fields => (Fields.keys fields).Nodup ∧ Fields.AllWellFormed fields
  | _ => True
termination_by structural value => value

def Value.AllWellFormed : List Value → Prop
  | [] => True
  | value :: rest => value.WellFormed ∧ Value.AllWellFormed rest
termination_by structural values => values

def Fields.AllWellFormed : List (Text × Value) → Prop
  | [] => True
  | (_, value) :: rest => value.WellFormed ∧ Fields.AllWellFormed rest
termination_by structural fields => fields

end

def Fields.WellFormed (fields : Fields) : Prop :=
  fields.keys.Nodup ∧ Fields.AllWellFormed fields

end Inlay
