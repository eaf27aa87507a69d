import Inlay.Proofs.Value.Path

/-!
When two merges in a row are one merge. The first argument forgets an object of the data where it has
something else, and the second one puts an object in its place. Merged with each other beforehand,
the two arguments know nothing of the object in between, and the one of the data comes back. Where
this cannot happen, the two ways agree for all data.
-/

namespace Inlay

/-- At the end of a path through objects of both sides, the first one has something else and the
second one an object. -/
structure Fields.ClashesAt (first second : Fields) (path : List Text) : Prop where
  above : ObjectsAbove first second path
  replaced : ∃ value, (Value.obj first).at? path = some value ∧ ∀ fields, value ≠ .obj fields
  object : ∃ fields, (Value.obj second).at? path = some (.obj fields)

namespace Fields

variable {first second : Fields} {key : Text}

theorem clashesAt_singleton {value : Value} {new : Fields} (given : first.get? key = some value)
    (scalar : ∀ fields, value ≠ .obj fields) (object : second.get? key = some (.obj new)) :
    ClashesAt first second [key] where
  above := by
    intro before after split nonempty
    cases before with
    | nil => exact objectsAt_nil first second
    | cons _ _ =>
        obtain ⟨_, ended⟩ := List.cons.inj split
        exact absurd (List.append_eq_nil_iff.mp ended.symm).2 nonempty
  replaced := ⟨value, by simp [given], scalar⟩
  object := ⟨new, by simp [object]⟩

theorem ClashesAt.cons {path : List Text} {old new : Fields}
    (clashes : ClashesAt old new path) (given : first.get? key = some (.obj old))
    (object : second.get? key = some (.obj new)) : ClashesAt first second (key :: path) where
  above := by
    intro before after split nonempty
    cases before with
    | nil => exact objectsAt_nil first second
    | cons _ before =>
        obtain ⟨rfl, splitRest⟩ := List.cons.inj split
        exact objectsAt_cons_iff.mpr
          ⟨old, new, given, object, clashes.above before after splitRest nonempty⟩
  replaced := by simpa [given] using clashes.replaced
  object := by simpa [object] using clashes.object

theorem ClashesAt.cases {path : List Text} (clashes : ClashesAt first second path) :
    ∃ key new, second.get? key = some (.obj new) ∧
      ((∃ value, first.get? key = some value ∧ ∀ fields, value ≠ .obj fields) ∨
        ∃ old rest, path = key :: rest ∧ first.get? key = some (.obj old) ∧
          ClashesAt old new rest) := by
  obtain ⟨above, ⟨value, given, scalar⟩, new, object⟩ := clashes
  cases path with
  | nil => exact absurd (Option.some.inj given).symm (scalar first)
  | cons key rest =>
      cases rest with
      | nil =>
          refine ⟨key, new, by simpa using object, .inl ⟨value, by simpa using given, scalar⟩⟩
      | cons next rest =>
          obtain ⟨old, inner, here, here', _⟩ :=
            objectsAt_cons_iff.mp (above [key] (next :: rest) rfl (List.cons_ne_nil _ _))
          rw [Value.at?_obj_cons, here, Option.bind_some] at given
          rw [Value.at?_obj_cons, here', Option.bind_some] at object
          refine ⟨key, inner, here', .inr ⟨old, next :: rest, rfl, here, ?_⟩⟩
          refine ⟨?_, ⟨value, given, scalar⟩, new, object⟩
          intro before after split nonempty
          obtain ⟨old', inner', again, again', lower⟩ := objectsAt_cons_iff.mp
            (above (key :: before) after (by rw [split, List.cons_append]) nonempty)
          cases here.symm.trans again
          cases here'.symm.trans again'
          exact lower

end Fields

theorem Value.mergeOver_mergeOver {value value' : Value} {current : Option Value}
    (fuse : ∀ new : Fields, value' = .obj new → ∃ old : Fields, value = .obj old ∧
      ∀ data : Fields, current = some (.obj data) →
        (data.merge old).merge new = data.merge (old.merge new)) :
    value'.mergeOver (some (value.mergeOver current)) =
      (value'.mergeOver (some value)).mergeOver current := by
  by_cases isObject : ∃ new, value' = .obj new
  · obtain ⟨new, rfl⟩ := isObject
    obtain ⟨old, rfl, fused⟩ := fuse new rfl
    by_cases meet : ∃ data, current = some (.obj data)
    · obtain ⟨data, rfl⟩ := meet
      simp only [mergeOver_obj, fused data rfl]
    · have alone (fields : Fields) : (Value.obj fields).mergeOver current = .obj fields :=
        mergeOver_eq_self fun _ data _ found => meet ⟨data, found⟩
      rw [alone, mergeOver_obj, alone]
  · have alone (current : Option Value) : value'.mergeOver current = value' :=
      mergeOver_eq_self fun new _ found _ => isObject ⟨new, found⟩
    rw [alone, alone, alone]

namespace Fields

variable {first second : Fields} {key : Text}

theorem keys_merge_merge (distinct : first.keys.Nodup) (distinct' : second.keys.Nodup)
    (data : Fields) :
    ((data.merge first).merge second).keys = data.keys ++ (first.merge second).keys.filter
      (· ∉ data.keys) := by
  have once : second.keys.filter (· ∉ data.keys ++ first.keys.filter (· ∉ data.keys)) =
      (second.keys.filter (· ∉ first.keys)).filter (· ∉ data.keys) := by
    rw [List.filter_filter]
    apply List.filter_congr
    intro name _
    by_cases known : name ∈ data.keys
    · simp [known]
    · simp [known]
  rw [keys_merge distinct', keys_merge distinct, keys_merge distinct', once, List.filter_append,
    List.append_assoc]

section

variable {value value' : Value} (wellFormed : first.WellFormed) (wellFormed' : second.WellFormed)
  (given : first.get? key = some value) (given' : second.get? key = some value') (data : Fields)

include wellFormed wellFormed' given given'

theorem get?_merge_merge :
    ((data.merge first).merge second).get? key =
      some (value'.mergeOver (some (value.mergeOver (data.get? key)))) := by
  rw [get?_merge wellFormed'.1, given', get?_merge wellFormed.1, given]

theorem get?_merge_fused :
    (data.merge (first.merge second)).get? key =
      some ((value'.mergeOver (some value)).mergeOver (data.get? key)) := by
  rw [get?_merge (wellFormed.merge wellFormed').1, get?_merge wellFormed'.1, given', given]

end

theorem merge_merge_of_not_clashesAt {first second data : Fields}
    (dataWellFormed : data.WellFormed) (wellFormed : first.WellFormed)
    (wellFormed' : second.WellFormed) (peaceful : ∀ path, ¬ClashesAt first second path) :
    (data.merge first).merge second = data.merge (first.merge second) := by
  have fused := wellFormed.merge wellFormed'
  apply eq_of_get? ((dataWellFormed.merge wellFormed).merge wellFormed').1
  · rw [keys_merge_merge wellFormed.1 wellFormed'.1, keys_merge fused.1]
  · intro key
    cases given : first.get? key with
    | none =>
        rw [get?_merge wellFormed'.1, get?_merge_of_none wellFormed given, get?_merge fused.1,
          get?_merge wellFormed'.1, given]
        cases second.get? key with
        | none => rfl
        | some value' => simp only [Value.mergeOver_none]
    | some value =>
        cases given' : second.get? key with
        | none =>
            have same : (first.merge second).get? key = some value := by
              rw [get?_merge_of_none wellFormed' given', given]
            rw [get?_merge_of_none wellFormed' given', get?_merge wellFormed.1, given,
              get?_merge fused.1, same]
        | some value' =>
            rw [get?_merge_merge wellFormed wellFormed' given given',
              get?_merge_fused wellFormed wellFormed' given given']
            apply congrArg some
            apply Value.mergeOver_mergeOver
            intro new isObject
            cases isObject
            by_cases isObject : ∃ old, value = .obj old
            · obtain ⟨old, rfl⟩ := isObject
              have smaller := sizeOf_lt_of_get? given
              refine ⟨old, rfl, fun inner current => ?_⟩
              apply merge_merge_of_not_clashesAt (dataWellFormed.of_get? current)
                (wellFormed.of_get? given) (wellFormed'.of_get? given')
              intro path clashes
              exact peaceful _ (clashes.cons given given')
            · have scalar (old : Fields) (found : value = .obj old) : False :=
                isObject ⟨old, found⟩
              exact absurd (clashesAt_singleton given scalar given') (peaceful _)
termination_by sizeOf first

theorem exists_notMem_keys (fields : Fields) : ∃ key, key ∉ fields.keys := by
  -- A text longer than all the keys together is none of them.
  refine ⟨.newline :: fields.keys.flatten, ?_⟩
  intro member
  have bound := (List.sublist_flatten_of_mem member).length_le
  rw [List.length_cons] at bound
  omega

theorem ClashesAt.exists_merge_ne {first second : Fields} {path : List Text}
    (clashes : ClashesAt first second path) (wellFormed : first.WellFormed)
    (wellFormed' : second.WellFormed) :
    ∃ data : Fields, data.WellFormed ∧
      (data.merge first).merge second ≠ data.merge (first.merge second) := by
  obtain ⟨key, new, given', here | below⟩ := clashes.cases
  · obtain ⟨value, given, scalar⟩ := here
    obtain ⟨name, fresh⟩ := exists_notMem_keys new
    let inner : Fields := [(name, .null)]
    refine ⟨[(key, .obj inner)], wellFormed_singleton (wellFormed_singleton trivial), ?_⟩
    intro same
    have read := congrArg (get? · key) same
    have forgets (current : Option Value) : value.mergeOver current = value :=
      Value.mergeOver_eq_self fun fields _ found => absurd found (scalar fields)
    have forgotten (value' : Value) : value'.mergeOver (some value) = value' :=
      Value.mergeOver_eq_self fun _ fields _ found => scalar fields (Option.some.inj found)
    simp only [get?_merge_merge wellFormed wellFormed' given given',
      get?_merge_fused wellFormed wellFormed' given given', get?_cons, if_true, forgets, forgotten,
      Value.mergeOver_obj, Option.some.injEq, Value.obj.injEq] at read
    apply fresh
    rw [read, keys_merge (wellFormed'.of_get? given').1]
    exact List.mem_append_left _ (List.mem_cons_self ..)
  · obtain ⟨old, rest, rfl, given, lower⟩ := below
    obtain ⟨inner, innerWellFormed, differ⟩ :=
      lower.exists_merge_ne (wellFormed.of_get? given) (wellFormed'.of_get? given')
    refine ⟨[(key, .obj inner)], wellFormed_singleton innerWellFormed, ?_⟩
    intro same
    have read := congrArg (get? · key) same
    simp only [get?_merge_merge wellFormed wellFormed' given given',
      get?_merge_fused wellFormed wellFormed' given given', get?_cons, if_true,
      Value.mergeOver_obj, Option.some.injEq, Value.obj.injEq] at read
    exact differ read
termination_by path.length

/-- Two merges in a row are the merge with the merged arguments, whatever the data, unless the
arguments clash somewhere. -/
theorem merges_fuse_iff (wellFormed : first.WellFormed) (wellFormed' : second.WellFormed) :
    (∀ data : Fields, data.WellFormed →
      (data.merge first).merge second = data.merge (first.merge second)) ↔
    ¬∃ path, ClashesAt first second path := by
  constructor
  · intro fuse clashing
    obtain ⟨path, clashes⟩ := clashing
    obtain ⟨data, dataWellFormed, differ⟩ := clashes.exists_merge_ne wellFormed wellFormed'
    exact differ (fuse data dataWellFormed)
  · intro peaceful data dataWellFormed
    exact merge_merge_of_not_clashesAt dataWellFormed wellFormed wellFormed'
      fun path clashes => peaceful ⟨path, clashes⟩

/-- A null below a common key forgets what the data has there, and the fused arguments do not. -/
theorem merges_fuse_iff_of_null :
    let first : Fields := [("a", .obj [("x", .null)])]
    let second : Fields := [("b", .null), ("a", .obj [("x", .obj [])])]
    first.WellFormed ∧ second.WellFormed ∧ ClashesAt first second ["a", "x"] ∧
      ¬∀ data : Fields, data.WellFormed →
        (data.merge first).merge second = data.merge (first.merge second) := by
  intro first second
  have wellFormed : first.WellFormed := ⟨by decide, ⟨by decide, trivial, trivial⟩, trivial⟩
  have wellFormed' : second.WellFormed :=
    ⟨by decide, trivial, ⟨by decide, ⟨by decide, trivial⟩, trivial⟩, trivial⟩
  have clashes : ClashesAt first second ["a", "x"] := by
    apply ClashesAt.cons _ (by rfl) (by rfl)
    exact @clashesAt_singleton _ _ _ .null [] (by rfl) nofun (by rfl)
  refine ⟨wellFormed, wellFormed', clashes, ?_⟩
  intro fuse
  exact (merges_fuse_iff wellFormed wellFormed').mp fuse ⟨_, clashes⟩

end Fields

end Inlay
