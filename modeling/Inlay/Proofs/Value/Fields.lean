import Inlay.Value.Update
import Inlay.Value.Basic

/-!
Fields as an ordered table. Fields with distinct keys are known by the order of their keys and by
what each key has. Both ways to update data take over the fields of an argument one after the other,
so the keys of the data stay in front, and a key of the argument gets what the update makes of its
two values.
-/

namespace Inlay

namespace Fields

@[simp] theorem get?_nil (key : Text) : get? [] key = none := rfl

theorem get?_cons (name key : Text) (value : Value) (rest : Fields) :
    get? ((name, value) :: rest) key = if name = key then some value else rest.get? key := rfl

@[simp] theorem keys_cons (name : Text) (value : Value) (rest : Fields) :
    keys ((name, value) :: rest) = name :: rest.keys := rfl

theorem get?_eq_none_iff {fields : Fields} {key : Text} :
    fields.get? key = none ↔ key ∉ fields.keys := by
  induction fields with
  | nil => simp [keys]
  | cons field rest induction =>
      obtain ⟨name, value⟩ := field
      by_cases here : name = key
      · simp [get?_cons, here]
      · simp [get?_cons, here, induction, Ne.symm here]

theorem mem_of_get? {fields : Fields} {key : Text} {value : Value}
    (found : fields.get? key = some value) : (key, value) ∈ fields := by
  induction fields with
  | nil => contradiction
  | cons field rest induction =>
      obtain ⟨name, first⟩ := field
      rw [get?_cons] at found
      split at found
      · next here =>
          cases here
          cases found
          exact List.mem_cons_self ..
      · exact List.mem_cons_of_mem _ (induction found)

theorem get?_of_mem {fields : Fields} (distinct : fields.keys.Nodup) {key : Text} {value : Value}
    (member : (key, value) ∈ fields) : fields.get? key = some value := by
  induction fields with
  | nil => contradiction
  | cons field rest induction =>
      obtain ⟨name, first⟩ := field
      obtain ⟨fresh, distinctRest⟩ := List.nodup_cons.mp distinct
      cases member with
      | head => rw [get?_cons, if_pos rfl]
      | tail _ later =>
          have different : name ≠ key := by
            intro same
            exact fresh (List.mem_map.mpr ⟨_, later, same.symm⟩)
          rw [get?_cons, if_neg different]
          exact induction distinctRest later

theorem eq_of_get? {fields others : Fields} (distinct : fields.keys.Nodup)
    (sameKeys : fields.keys = others.keys) (sameValues : ∀ key, fields.get? key = others.get? key) :
    fields = others := by
  induction fields generalizing others with
  | nil => exact (List.map_eq_nil_iff.mp sameKeys.symm).symm
  | cons field rest induction =>
      obtain ⟨name, value⟩ := field
      cases others with
      | nil => contradiction
      | cons other more =>
          obtain ⟨otherName, otherValue⟩ := other
          obtain ⟨rfl, sameRest⟩ : name = otherName ∧ keys rest = keys more :=
            List.cons.inj sameKeys
          obtain ⟨fresh, distinctRest⟩ := List.nodup_cons.mp distinct
          have here := sameValues name
          rw [get?_cons, get?_cons, if_pos rfl, if_pos rfl] at here
          cases here
          have later (key : Text) : get? rest key = get? more key := by
            by_cases same : name = key
            · cases same
              rw [get?_eq_none_iff.mpr fresh, get?_eq_none_iff.mpr (sameRest ▸ fresh)]
            · have there := sameValues key
              rwa [get?_cons, get?_cons, if_neg same, if_neg same] at there
          rw [induction distinctRest sameRest later]

/-- Takes over fields one after the other. What a key gets is made from its new value and from the
one it has so far. -/
def combine (join : Value → Option Value → Value) (data argument : Fields) : Fields :=
  argument.foldl (fun result (key, value) => result.insert key (join value (result.get? key))) data

theorem overlay_eq_combine (data argument : Fields) :
    data.overlay argument = combine (fun value _ => value) data argument := rfl

theorem merge_eq_combine (data argument : Fields) :
    data.merge argument = combine Value.mergeOver data argument := by
  unfold merge
  induction argument generalizing data with
  | nil => rfl
  | cons field rest induction =>
      rw [mergeInto, induction]
      rfl

section Combine

variable {join : Value → Option Value → Value} {data argument : Fields}

theorem combine_cons (key : Text) (value : Value) (rest : Fields) :
    combine join data ((key, value) :: rest) =
      combine join (data.insert key (join value (data.get? key))) rest := rfl

theorem keys_combine (distinct : argument.keys.Nodup) :
    (combine join data argument).keys =
      data.keys ++ argument.keys.filter (· ∉ data.keys) := by
  induction argument generalizing data with
  | nil => simp [combine, keys]
  | cons field rest induction =>
      obtain ⟨key, value⟩ := field
      obtain ⟨fresh, distinctRest⟩ := List.nodup_cons.mp distinct
      rw [combine_cons, induction distinctRest, keys_insert, keys_cons]
      by_cases known : key ∈ data.keys
      · rw [if_pos known, List.filter_cons_of_neg (by simpa using known)]
      · have unseen : (keys rest).filter (· ∉ data.keys ++ [key]) =
            (keys rest).filter (· ∉ data.keys) := by
          apply List.filter_congr
          intro other member
          have different : other ≠ key := by
            intro same
            exact fresh (same ▸ member)
          simp [different]
        rw [if_neg known, List.filter_cons_of_pos (by simpa using known), unseen,
          List.append_assoc, List.singleton_append]

theorem get?_combine (distinct : argument.keys.Nodup) (key : Text) :
    (combine join data argument).get? key =
      match argument.get? key with
      | none => data.get? key
      | some value => some (join value (data.get? key)) := by
  induction argument generalizing data with
  | nil => rfl
  | cons field rest induction =>
      obtain ⟨name, value⟩ := field
      obtain ⟨fresh, distinctRest⟩ := List.nodup_cons.mp distinct
      rw [combine_cons, induction distinctRest, get?_cons]
      by_cases here : name = key
      · cases here
        rw [if_pos rfl, get?_eq_none_iff.mpr fresh, get?_insert_self]
      · rw [if_neg here, get?_insert_of_ne _ _ here]

theorem nodup_keys_combine (distinctData : data.keys.Nodup) (distinct : argument.keys.Nodup) :
    (combine join data argument).keys.Nodup := by
  rw [keys_combine distinct]
  apply List.nodup_append.mpr
  refine ⟨distinctData, distinct.filter _, ?_⟩
  intro key inData other fromArgument same
  have unknown : other ∉ data.keys := by simpa using (List.mem_filter.mp fromArgument).2
  exact unknown (same ▸ inData)

theorem combine_nil (alone : ∀ value, join value none = value) (distinct : argument.keys.Nodup) :
    combine join [] argument = argument := by
  apply eq_of_get?
  · exact nodup_keys_combine List.nodup_nil distinct
  · rw [keys_combine distinct]
    simp [keys]
  · intro key
    rw [get?_combine distinct]
    cases get? argument key with
    | none => rfl
    | some value => exact congrArg some (alone value)

end Combine

theorem ofMembers_eq_self {fields : Fields} (distinct : fields.keys.Nodup) :
    ofMembers fields = fields := by
  rw [ofMembers, overlay_eq_combine]
  exact combine_nil (fun _ => rfl) distinct

end Fields

@[simp] theorem Value.mergeOver_obj (data argument : Fields) :
    (Value.obj argument).mergeOver (some (.obj data)) = .obj (data.merge argument) := rfl

theorem Value.mergeOver_eq_self {value : Value} {current : Option Value}
    (apart : ∀ argument data, value = .obj argument → current ≠ some (.obj data)) :
    value.mergeOver current = value := by
  cases value with
  | obj argument =>
      cases current with
      | none => rfl
      | some old =>
          cases old with
          | obj data => exact absurd rfl (apart argument data rfl)
          | null | bool | int | real | str | arr => rfl
  | null | bool | int | real | str | arr => rfl

@[simp] theorem Value.mergeOver_none (value : Value) : value.mergeOver none = value :=
  mergeOver_eq_self nofun

theorem Fields.keys_merge {argument : Fields} (distinct : argument.keys.Nodup) (data : Fields) :
    (data.merge argument).keys = data.keys ++ argument.keys.filter (· ∉ data.keys) := by
  rw [merge_eq_combine, keys_combine distinct]

theorem Fields.get?_merge {argument : Fields} (distinct : argument.keys.Nodup) (data : Fields)
    (key : Text) :
    (data.merge argument).get? key =
      match argument.get? key with
      | none => data.get? key
      | some value => some (value.mergeOver (data.get? key)) := by
  rw [merge_eq_combine, get?_combine distinct]

namespace Fields

theorem allWellFormed_iff {fields : Fields} :
    AllWellFormed fields ↔ ∀ field ∈ fields, field.2.WellFormed := by
  induction fields with
  | nil => simp [AllWellFormed]
  | cons field rest induction => simp [AllWellFormed, induction]

theorem WellFormed.of_get? {fields : Fields} (wellFormed : fields.WellFormed) {key : Text}
    {value : Value} (found : fields.get? key = some value) : value.WellFormed :=
  allWellFormed_iff.mp wellFormed.2 _ (mem_of_get? found)

theorem wellFormed_of_get? {fields : Fields} (distinct : fields.keys.Nodup)
    (wellFormed : ∀ key value, fields.get? key = some value → value.WellFormed) :
    fields.WellFormed := by
  refine ⟨distinct, allWellFormed_iff.mpr ?_⟩
  intro field member
  exact wellFormed field.1 field.2 (get?_of_mem distinct member)

theorem wellFormed_singleton {key : Text} {value : Value} (wellFormed : value.WellFormed) :
    WellFormed [(key, value)] :=
  ⟨List.nodup_cons.mpr ⟨List.not_mem_nil, List.nodup_nil⟩, wellFormed, trivial⟩

theorem sizeOf_lt_of_mem {fields inner : Fields} {key : Text}
    (member : (key, .obj inner) ∈ fields) : sizeOf inner < sizeOf fields := by
  have inside := List.sizeOf_lt_of_mem member
  simp only [Prod.mk.sizeOf_spec, Value.obj.sizeOf_spec] at inside
  omega

theorem sizeOf_lt_of_get? {fields inner : Fields} {key : Text}
    (found : fields.get? key = some (.obj inner)) : sizeOf inner < sizeOf fields :=
  sizeOf_lt_of_mem (mem_of_get? found)

theorem WellFormed.merge {data argument : Fields} (dataWellFormed : data.WellFormed)
    (wellFormed : argument.WellFormed) : (data.merge argument).WellFormed := by
  apply wellFormed_of_get?
  · rw [merge_eq_combine]
    exact nodup_keys_combine dataWellFormed.1 wellFormed.1
  · intro key value found
    rw [get?_merge wellFormed.1] at found
    split at found
    · exact dataWellFormed.of_get? found
    · next new given =>
        cases found
        by_cases meet : ∃ inner old, new = .obj inner ∧ data.get? key = some (.obj old)
        · obtain ⟨inner, old, rfl, current⟩ := meet
          have smaller := sizeOf_lt_of_get? given
          rw [current, Value.mergeOver_obj]
          exact WellFormed.merge (dataWellFormed.of_get? current) (wellFormed.of_get? given)
        · rw [Value.mergeOver_eq_self fun inner old isObject current =>
            meet ⟨inner, old, isObject, current⟩]
          exact wellFormed.of_get? given
termination_by sizeOf argument

end Fields

end Inlay
