import Inlay.Proofs.Value.Fields

/-!
Reading along a path of keys, and what a merge leaves to be read there. Down to the first place
where one side has no object the two sides are merged level by level. There the argument wins, if it
has anything, together with all that lies below; where the argument has nothing, the data stays.
-/

namespace Inlay

def Value.at? : Value → List Text → Option Value
  | value, [] => some value
  | .obj fields, key :: path => (Fields.get? fields key).bind (·.at? path)
  | _, _ :: _ => none

namespace Value

@[simp] theorem at?_nil (value : Value) : value.at? [] = some value := by
  cases value <;> rfl

@[simp] theorem at?_obj_cons (fields : Fields) (key : Text) (path : List Text) :
    (Value.obj fields).at? (key :: path) = (fields.get? key).bind (·.at? path) := rfl

theorem at?_append (value : Value) (path more : List Text) :
    value.at? (path ++ more) = (value.at? path).bind (·.at? more) := by
  induction path generalizing value with
  | nil => simp
  | cons key path induction =>
      cases value with
      | obj fields =>
          rw [List.cons_append, at?_obj_cons, at?_obj_cons]
          cases Fields.get? fields key with
          | none => rfl
          | some inner => exact induction inner
      | null | bool | int | real | str | arr => rfl

theorem exists_fields_of_at? {value : Value} {path : List Text} {inner : Fields}
    (read : value.at? path = some (.obj inner)) : ∃ fields, value = .obj fields := by
  cases path with
  | nil => exact ⟨inner, Option.some.inj (value.at?_nil.symm.trans read)⟩
  | cons key path =>
      cases value with
      | obj fields => exact ⟨fields, rfl⟩
      | null | bool | int | real | str | arr => contradiction

end Value

namespace Fields

def ObjectsAt (data argument : Fields) (path : List Text) : Prop :=
  (∃ old, (Value.obj data).at? path = some (.obj old)) ∧
    ∃ new, (Value.obj argument).at? path = some (.obj new)

def ObjectsAbove (data argument : Fields) (path : List Text) : Prop :=
  ∀ before after, path = before ++ after → after ≠ [] → ObjectsAt data argument before

variable {data argument : Fields}

theorem objectsAt_nil (data argument : Fields) : ObjectsAt data argument [] :=
  ⟨⟨data, rfl⟩, ⟨argument, rfl⟩⟩

theorem objectsAt_cons_iff {key : Text} {path : List Text} :
    ObjectsAt data argument (key :: path) ↔
      ∃ old new, data.get? key = some (.obj old) ∧ argument.get? key = some (.obj new) ∧
        ObjectsAt old new path := by
  constructor
  · intro objects
    obtain ⟨⟨lowerOld, readOld⟩, lowerNew, readNew⟩ := objects
    rw [Value.at?_obj_cons] at readOld readNew
    obtain ⟨oldValue, here, there⟩ := Option.bind_eq_some_iff.mp readOld
    obtain ⟨newValue, here', there'⟩ := Option.bind_eq_some_iff.mp readNew
    obtain ⟨old, rfl⟩ := Value.exists_fields_of_at? there
    obtain ⟨new, rfl⟩ := Value.exists_fields_of_at? there'
    exact ⟨old, new, here, here', ⟨lowerOld, there⟩, lowerNew, there'⟩
  · intro objects
    obtain ⟨old, new, here, here', ⟨lowerOld, there⟩, lowerNew, there'⟩ := objects
    refine ⟨⟨lowerOld, ?_⟩, lowerNew, ?_⟩
    · rw [Value.at?_obj_cons, here, Option.bind_some, there]
    · rw [Value.at?_obj_cons, here', Option.bind_some, there']

theorem WellFormed.of_at? {fields : Fields} (wellFormed : fields.WellFormed) {path : List Text}
    {inner : Fields} (read : (Value.obj fields).at? path = some (.obj inner)) :
    inner.WellFormed := by
  induction path generalizing fields with
  | nil =>
      cases read
      exact wellFormed
  | cons key path induction =>
      rw [Value.at?_obj_cons] at read
      obtain ⟨value, here, there⟩ := Option.bind_eq_some_iff.mp read
      obtain ⟨upper, rfl⟩ := Value.exists_fields_of_at? there
      exact induction (wellFormed.of_get? here) there

theorem get?_merge_of_none (wellFormed : argument.WellFormed) {key : Text}
    (absent : argument.get? key = none) : (data.merge argument).get? key = data.get? key := by
  rw [get?_merge wellFormed.1, absent]

theorem get?_merge_of_objects (wellFormed : argument.WellFormed) {key : Text} {old new : Fields}
    (current : data.get? key = some (.obj old)) (given : argument.get? key = some (.obj new)) :
    (data.merge argument).get? key = some (.obj (old.merge new)) := by
  rw [get?_merge wellFormed.1, given, current]
  rfl

theorem get?_merge_of_apart (wellFormed : argument.WellFormed) {key : Text} {value : Value}
    (given : argument.get? key = some value) (apart : ¬ObjectsAt data argument [key]) :
    (data.merge argument).get? key = some value := by
  rw [get?_merge wellFormed.1, given]
  apply congrArg some
  apply Value.mergeOver_eq_self
  intro new old isObject current
  cases isObject
  exact apart (objectsAt_cons_iff.mpr ⟨old, new, current, given, objectsAt_nil old new⟩)

theorem at?_merge_of_objects (wellFormed : argument.WellFormed) {path : List Text}
    {old new : Fields} (current : (Value.obj data).at? path = some (.obj old))
    (given : (Value.obj argument).at? path = some (.obj new)) :
    (Value.obj (data.merge argument)).at? path = some (.obj (old.merge new)) := by
  induction path generalizing data argument with
  | nil =>
      cases current
      cases given
      rfl
  | cons key path induction =>
      obtain ⟨upperOld, upperNew, here, here', _⟩ :=
        objectsAt_cons_iff.mp ⟨⟨old, current⟩, new, given⟩
      rw [Value.at?_obj_cons, here, Option.bind_some] at current
      rw [Value.at?_obj_cons, here', Option.bind_some] at given
      rw [Value.at?_obj_cons, get?_merge_of_objects wellFormed here here', Option.bind_some]
      exact induction (wellFormed.of_get? here') current given

theorem at?_merge_of_apart (wellFormed : argument.WellFormed) {path : List Text} {value : Value}
    (given : (Value.obj argument).at? path = some value)
    (apart : ¬ObjectsAt data argument path) :
    (Value.obj (data.merge argument)).at? path = some value := by
  induction path generalizing data argument with
  | nil => exact absurd (objectsAt_nil data argument) apart
  | cons key path induction =>
      rw [Value.at?_obj_cons] at given ⊢
      obtain ⟨upper, here, there⟩ := Option.bind_eq_some_iff.mp given
      by_cases objects : ObjectsAt data argument [key]
      · obtain ⟨old, new, current, here', _⟩ := objectsAt_cons_iff.mp objects
        cases here.symm.trans here'
        rw [get?_merge_of_objects wellFormed current here', Option.bind_some]
        apply induction (wellFormed.of_get? here') there
        intro lower
        exact apart (objectsAt_cons_iff.mpr ⟨old, new, current, here', lower⟩)
      · rw [get?_merge_of_apart wellFormed here objects, Option.bind_some, there]

theorem at?_merge_of_none (wellFormed : argument.WellFormed) {path : List Text}
    (absent : (Value.obj argument).at? path = none)
    (objects : ∀ before after, path = before ++ after → after ≠ [] →
      (Value.obj argument).at? before ≠ none → ObjectsAt data argument before) :
    (Value.obj (data.merge argument)).at? path = (Value.obj data).at? path := by
  induction path generalizing data argument with
  | nil => contradiction
  | cons key path induction =>
      rw [Value.at?_obj_cons, Value.at?_obj_cons]
      cases given : argument.get? key with
      | none => rw [get?_merge_of_none wellFormed given]
      | some value =>
          have reached : (Value.obj argument).at? [key] ≠ none := by simp [given]
          have nonempty : path ≠ [] := by
            intro ended
            cases ended
            exact reached absent
          obtain ⟨old, new, current, here, _⟩ :=
            objectsAt_cons_iff.mp (objects [key] path rfl nonempty reached)
          rw [get?_merge_of_objects wellFormed current here, current, Option.bind_some,
            Option.bind_some]
          apply induction (wellFormed.of_get? here)
          · rwa [Value.at?_obj_cons, here, Option.bind_some] at absent
          · intro before after split nonempty reached
            have lower := objects (key :: before) after (by rw [split, List.cons_append]) nonempty
              (by rwa [Value.at?_obj_cons, here, Option.bind_some])
            obtain ⟨old', new', current', here', lower⟩ := objectsAt_cons_iff.mp lower
            cases current.symm.trans current'
            cases here.symm.trans here'
            exact lower

/-- What is read at a path after a merge. -/
inductive MergedAt (data argument : Fields) (path : List Text) : Option Value → Prop
  | merged {old new : Fields} :
      ObjectsAbove data argument path →
      (Value.obj data).at? path = some (.obj old) →
      (Value.obj argument).at? path = some (.obj new) →
      MergedAt data argument path (some (.obj (old.merge new)))
  | replaced {value : Value} :
      ObjectsAbove data argument path →
      (Value.obj argument).at? path = some value → ¬ObjectsAt data argument path →
      MergedAt data argument path (some value)
  | kept :
      (Value.obj argument).at? path = none →
      (∀ before after, path = before ++ after → after ≠ [] →
        (Value.obj argument).at? before ≠ none → ObjectsAt data argument before) →
      MergedAt data argument path ((Value.obj data).at? path)
  | below {before after : List Text} {value : Value} :
      path = before ++ after → after ≠ [] →
      (Value.obj argument).at? before = some value → ¬ObjectsAt data argument before →
      MergedAt data argument path (value.at? after)

theorem MergedAt.at?_eq {path : List Text} {result : Option Value}
    (mergedAt : MergedAt data argument path result) (wellFormed : argument.WellFormed) :
    (Value.obj (data.merge argument)).at? path = result := by
  cases mergedAt with
  | merged _ current given => exact at?_merge_of_objects wellFormed current given
  | replaced _ given apart => exact at?_merge_of_apart wellFormed given apart
  | kept absent objects => exact at?_merge_of_none wellFormed absent objects
  | below split _ given apart =>
      rw [split, Value.at?_append, at?_merge_of_apart wellFormed given apart, Option.bind_some]

theorem exists_mergedAt (data argument : Fields) (path : List Text) :
    ∃ result, MergedAt data argument path result := by
  by_cases overtaken : ∃ before after value, path = before ++ after ∧ after ≠ [] ∧
      (Value.obj argument).at? before = some value ∧ ¬ObjectsAt data argument before
  · obtain ⟨before, after, value, split, nonempty, given, apart⟩ := overtaken
    exact ⟨_, .below split nonempty given apart⟩
  · have objects : ∀ before after, path = before ++ after → after ≠ [] →
        (Value.obj argument).at? before ≠ none → ObjectsAt data argument before := by
      intro before after split nonempty reached
      obtain ⟨value, given⟩ := Option.ne_none_iff_exists'.mp reached
      apply Classical.byContradiction
      intro apart
      exact overtaken ⟨before, after, value, split, nonempty, given, apart⟩
    cases given : (Value.obj argument).at? path with
    | none => exact ⟨_, .kept given objects⟩
    | some value =>
        have above : ObjectsAbove data argument path := by
          intro before after split nonempty
          apply objects before after split nonempty
          intro absent
          rw [split, Value.at?_append, absent] at given
          contradiction
        by_cases both : ObjectsAt data argument path
        · obtain ⟨⟨old, current⟩, new, isObject⟩ := both
          exact ⟨_, .merged above current isObject⟩
        · exact ⟨_, .replaced above given both⟩

/-- A merge of well-formed fields is well-formed; wherever both sides have objects the keys of the
data stand first, in their order, and then the new ones of the argument; and a path leads to what the
two sides have there and above. -/
theorem merge_along_paths (dataWellFormed : data.WellFormed) (wellFormed : argument.WellFormed) :
    (data.merge argument).WellFormed ∧
    (data.merge argument).keys = data.keys ++ argument.keys.filter (· ∉ data.keys) ∧
    (∀ (path : List Text) (old new : Fields), (Value.obj data).at? path = some (.obj old) →
      (Value.obj argument).at? path = some (.obj new) →
      ∃ merged : Fields, (Value.obj (data.merge argument)).at? path = some (.obj merged) ∧
        merged.keys = old.keys ++ new.keys.filter (· ∉ old.keys)) ∧
    ∀ path result, (Value.obj (data.merge argument)).at? path = result ↔
      MergedAt data argument path result := by
  refine ⟨dataWellFormed.merge wellFormed, keys_merge wellFormed.1 data, ?_, ?_⟩
  · intro path old new current given
    refine ⟨old.merge new, at?_merge_of_objects wellFormed current given, ?_⟩
    exact keys_merge (wellFormed.of_at? given).1 old
  · intro path result
    constructor
    · intro read
      obtain ⟨other, mergedAt⟩ := exists_mergedAt data argument path
      rwa [← read, mergedAt.at?_eq wellFormed]
    · intro mergedAt
      exact mergedAt.at?_eq wellFormed

/-- An object goes over a truth value, and an array over an object further down. -/
theorem merge_along_paths_of_nested :
    let data : Fields := [("a", .obj [("x", .null), ("y", .obj [])]), ("b", .bool true)]
    let argument : Fields := [("c", .null), ("b", .obj [("z", .null)]),
      ("a", .obj [("y", .arr [.obj []])])]
    data.WellFormed ∧ argument.WellFormed ∧
      (data.merge argument).keys = (["a", "b", "c"] : List Text) ∧
      MergedAt data argument ["b", "z"] (some .null) ∧
      MergedAt data argument ["a", "y"] (some (.arr [.obj []])) ∧
      MergedAt data argument ["a", "x"] (some .null) := by
  intro data argument
  have dataWellFormed : data.WellFormed :=
    ⟨by decide, ⟨by decide, trivial, ⟨by decide, trivial⟩, trivial⟩, trivial, trivial⟩
  have wellFormed : argument.WellFormed :=
    ⟨by decide, trivial, ⟨by decide, trivial, trivial⟩,
      ⟨by decide, ⟨⟨by decide, trivial⟩, trivial⟩, trivial⟩, trivial⟩
  have ⟨_, sameKeys, _, reads⟩ := merge_along_paths dataWellFormed wellFormed
  refine ⟨dataWellFormed, wellFormed, ?_, ?_, ?_, ?_⟩
  · rw [sameKeys]
    decide
  · exact (reads _ _).mp (by rfl)
  · exact (reads _ _).mp (by rfl)
  · exact (reads _ _).mp (by rfl)

end Fields

end Inlay
