import Inlay.Value.Basic

/-!
The two ways in which the fields of an argument update scope data. An overlay replaces whole
values; a merge goes on into objects that stand on both sides, and replaces everything else.
-/

namespace Inlay

def Fields.overlay (data argument : Fields) : Fields :=
  argument.foldl (fun result (key, value) => result.insert key value) data

/-- The fields given by a list in which keys may occur more than once: a key has its first place and
its last value. -/
def Fields.ofMembers (members : List (Text × Value)) : Fields :=
  Fields.overlay [] members

mutual

/-- The value that takes the place of `current` when `value` is merged over it. -/
def Value.mergeOver (value : Value) (current : Option Value) : Value :=
  match value, current with
  | .obj argument, some (.obj data) => .obj (Fields.mergeInto argument data)
  | value, _ => value
termination_by structural value

def Fields.mergeInto (argument data : Fields) : Fields :=
  match argument with
  | [] => data
  | (key, value) :: rest =>
      Fields.mergeInto rest (data.insert key (value.mergeOver (data.get? key)))
termination_by structural argument

end

def Fields.merge (data argument : Fields) : Fields :=
  Fields.mergeInto argument data

end Inlay
