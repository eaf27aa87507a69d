import Inlay.Proofs.Value.Fields

/-!
Updates that are given again. An argument that data has taken over, by either way of updating, adds
nothing when it comes a second time, except that an overlay also forgets what a merge had kept.
-/

namespace Inlay

namespace Fields

section Combine

variable {join join' both : Value → Option Value → Value} {data argument : Fields}

theorem combine_combine_self (distinctData : data.keys.Nodup) (distinct : argument.keys.Nodup)
    (absorbs : ∀ key value, argument.get? key = some value →
      join' value (some (join value (data.get? key))) = both value (data.get? key)) :
    combine join' (combine join data argument) argument = combine both data argument := by
  have distinctOnce := @nodup_keys_combine join data argument distinctData distinct
  apply eq_of_get?
  · exact nodup_keys_combine distinctOnce distinct
  · have known : argument.keys.filter
        (· ∉ data.keys ++ argument.keys.filter (· ∉ data.keys)) = [] := by
      apply List.filter_eq_nil_iff.mpr
      intro key member
      by_cases old : key ∈ data.keys
      · simp [old]
      · simp [old, member]
    rw [keys_combine distinct, keys_combine distinct, keys_combine distinct, known,
      List.append_nil]
  · intro key
    rw [get?_combine distinct, get?_combine distinct, get?_combine distinct]
    cases given : argument.get? key with
    | none => rfl
    | some value => exact congrArg some (absorbs key value given)

end Combine

end Fields

theorem Value.mergeOver_self {value : Value}
    (absorbs : ∀ fields : Fields, value = .obj fields → fields.merge fields = fields) :
    value.mergeOver (some value) = value := by
  by_cases isObject : ∃ fields, value = .obj fields
  · obtain ⟨fields, rfl⟩ := isObject
    rw [mergeOver_obj, absorbs fields rfl]
  · exact mergeOver_eq_self fun fields _ found _ => isObject ⟨fields, found⟩

theorem Value.mergeOver_mergeOver_self {value : Value} {current : Option Value}
    (absorbs : ∀ new : Fields, value = .obj new → new.merge new = new ∧
      ∀ old : Fields, current = some (.obj old) → (old.merge new).merge new = old.merge new) :
    value.mergeOver (some (value.mergeOver current)) = value.mergeOver current := by
  by_cases meet : ∃ new old, value = .obj new ∧ current = some (.obj old)
  · obtain ⟨new, old, rfl, rfl⟩ := meet
    rw [mergeOver_obj, mergeOver_obj, (absorbs new rfl).2 old rfl]
  · have replaced : value.mergeOver current = value :=
      mergeOver_eq_self fun new old isObject found => meet ⟨new, old, isObject, found⟩
    rw [replaced]
    exact mergeOver_self fun fields isObject => (absorbs fields isObject).1

namespace Fields

variable {data argument : Fields}

theorem wellFormed_nil : WellFormed [] :=
  ⟨List.nodup_nil, trivial⟩

theorem nil_merge (distinct : argument.keys.Nodup) : merge [] argument = argument := by
  rw [merge_eq_combine]
  exact combine_nil Value.mergeOver_none distinct

theorem merge_merge_self {data argument : Fields} (dataWellFormed : data.WellFormed)
    (wellFormed : argument.WellFormed) :
    (data.merge argument).merge argument = data.merge argument := by
  rw [merge_eq_combine, merge_eq_combine]
  apply combine_combine_self dataWellFormed.1 wellFormed.1
  intro key value given
  apply Value.mergeOver_mergeOver_self
  intro new isObject
  cases isObject
  have smaller := sizeOf_lt_of_get? given
  have newWellFormed : WellFormed new := wellFormed.of_get? given
  refine ⟨?_, ?_⟩
  · -- What was put in place of something else meets only itself, as if it had been merged into no
    -- fields at all.
    have again := merge_merge_self wellFormed_nil newWellFormed
    rwa [nil_merge newWellFormed.1] at again
  · intro old current
    exact merge_merge_self (dataWellFormed.of_get? current) newWellFormed
termination_by sizeOf argument

theorem merge_self (wellFormed : argument.WellFormed) : argument.merge argument = argument := by
  have again := merge_merge_self wellFormed_nil wellFormed
  rwa [nil_merge wellFormed.1] at again

theorem merge_overlay_self (dataWellFormed : data.WellFormed) (wellFormed : argument.WellFormed) :
    (data.overlay argument).merge argument = data.overlay argument := by
  rw [merge_eq_combine, overlay_eq_combine]
  apply combine_combine_self dataWellFormed.1 wellFormed.1
  intro key value given
  apply Value.mergeOver_self
  intro fields isObject
  cases isObject
  exact merge_self (wellFormed.of_get? given)

theorem overlay_combine_self {join : Value → Option Value → Value}
    (distinctData : data.keys.Nodup) (distinct : argument.keys.Nodup) :
    (combine join data argument).overlay argument = data.overlay argument := by
  rw [overlay_eq_combine, overlay_eq_combine]
  exact combine_combine_self distinctData distinct fun _ _ _ => rfl

theorem nodup_keys_insert (distinct : data.keys.Nodup) (key : Text) (value : Value) :
    (data.insert key value).keys.Nodup := by
  rw [keys_insert]
  split
  · exact distinct
  · next fresh =>
      apply List.nodup_append.mpr
      refine ⟨distinct, List.nodup_cons.mpr ⟨List.not_mem_nil, List.nodup_nil⟩, ?_⟩
      intro name member other single same
      rw [same, List.mem_singleton.mp single] at member
      exact fresh member

theorem insert_overlay (distinctData : data.keys.Nodup) (distinct : argument.keys.Nodup)
    (key : Text) (value : Value) :
    (data.overlay argument).insert key value = data.overlay (argument.insert key value) := by
  have distinctInserted := nodup_keys_insert distinct key value
  rw [overlay_eq_combine, overlay_eq_combine]
  apply eq_of_get?
  · exact nodup_keys_insert (nodup_keys_combine distinctData distinct) key value
  · rw [keys_insert, keys_combine distinct, keys_combine distinctInserted, keys_insert]
    by_cases given : key ∈ argument.keys
    · by_cases known : key ∈ data.keys
      · simp [given, known]
      · simp [given, known]
    · by_cases known : key ∈ data.keys
      · simp [given, known]
      · simp [given, known]
  · intro other
    rw [get?_combine distinctInserted]
    by_cases here : key = other
    · subst here
      rw [get?_insert_self, get?_insert_self]
    · rw [get?_insert_of_ne _ _ here, get?_insert_of_ne _ _ here, get?_combine distinct]

theorem overlay_overlay (distinctData : data.keys.Nodup) (distinct : argument.keys.Nodup)
    (other : Fields) :
    (data.overlay argument).overlay other = data.overlay (argument.overlay other) := by
  induction other generalizing argument with
  | nil => rfl
  | cons field rest induction =>
      obtain ⟨key, value⟩ := field
      calc
        (data.overlay argument).overlay ((key, value) :: rest)
        _ = ((data.overlay argument).insert key value).overlay rest := rfl
        _ = (data.overlay (argument.insert key value)).overlay rest := by
            rw [insert_overlay distinctData distinct]
        _ = data.overlay ((argument.insert key value).overlay rest) :=
            induction (nodup_keys_insert distinct key value)

/-- An update that repeats the one before it changes nothing, whichever of the two ways they take,
but for an overlay after a merge, which is the overlay alone. Into no fields both ways put the
argument itself, and two overlays in a row are the overlay with the overlaid arguments. -/
theorem updates_absorb (dataWellFormed : data.WellFormed) (wellFormed : argument.WellFormed) :
    (data.merge argument).merge argument = data.merge argument ∧
    (data.overlay argument).overlay argument = data.overlay argument ∧
    (data.overlay argument).merge argument = data.overlay argument ∧
    (data.merge argument).overlay argument = data.overlay argument ∧
    merge [] argument = argument ∧ overlay [] argument = argument ∧
    ∀ other : Fields,
      (data.overlay argument).overlay other = data.overlay (argument.overlay other) := by
  refine ⟨merge_merge_self dataWellFormed wellFormed, ?_,
    merge_overlay_self dataWellFormed wellFormed, ?_, nil_merge wellFormed.1,
    ofMembers_eq_self wellFormed.1, overlay_overlay dataWellFormed.1 wellFormed.1⟩
  · exact @overlay_combine_self data argument (fun value _ => value) dataWellFormed.1 wellFormed.1
  · rw [merge_eq_combine]
    exact overlay_combine_self dataWellFormed.1 wellFormed.1

/-- An object that first takes the place of a null is then merged with itself, in front of one that
was merged with an object of the data. -/
theorem updates_absorb_of_nested :
    let data : Fields := [("a", .null), ("b", .obj [("x", .null)])]
    let argument : Fields := [("c", .arr []), ("b", .obj [("y", .obj [])]),
      ("a", .obj [("z", .null)])]
    let merged : Fields := [("a", .obj [("z", .null)]), ("b", .obj [("x", .null), ("y", .obj [])]),
      ("c", .arr [])]
    let overlaid : Fields := [("a", .obj [("z", .null)]), ("b", .obj [("y", .obj [])]),
      ("c", .arr [])]
    data.WellFormed ∧ argument.WellFormed ∧ data.merge argument = merged ∧
      merged.merge argument = merged ∧ merged.overlay argument = overlaid ∧
      overlaid.merge argument = overlaid := by
  intro data argument merged overlaid
  have dataWellFormed : data.WellFormed :=
    ⟨by decide, trivial, ⟨by decide, trivial, trivial⟩, trivial⟩
  have wellFormed : argument.WellFormed :=
    ⟨by decide, trivial, ⟨by decide, ⟨by decide, trivial⟩, trivial⟩, ⟨by decide, trivial, trivial⟩,
      trivial⟩
  have ⟨mergedTwice, _, thenMerged, thenOverlaid, _⟩ := updates_absorb dataWellFormed wellFormed
  exact ⟨dataWellFormed, wellFormed, rfl, mergedTwice, thenOverlaid, thenMerged⟩

end Fields

end Inlay
