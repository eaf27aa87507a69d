import Inlay.Proofs.Value.Fields
import Inlay.Value.Display

/-! Updates of data bring in no other numbers than those of the data and of the argument. -/

namespace Inlay

namespace Fields

theorem isShort_iff {fields : Fields} : fields.isShort ↔ ∀ field ∈ fields, field.2.isShort := by
  induction fields with
  | nil => simp [isShort]
  | cons field rest induction => simp [isShort, induction]

theorem isShort_insert {fields : Fields} (short : fields.isShort) (key : Text) {value : Value}
    (shortValue : value.isShort) : (fields.insert key value).isShort := by
  fun_induction insert fields key value with
  | case1 => simp [isShort, shortValue]
  | case2 => simp_all [isShort]
  | case3 name old rest key value _ induction => simp_all [isShort]

theorem isShort_get? {fields : Fields} (short : fields.isShort) (key : Text) :
    ∀ value ∈ fields.get? key, value.isShort :=
  fun _ found => isShort_iff.mp short _ (mem_of_get? found)

theorem isShort_combine {join : Value → Option Value → Value} {data argument : Fields}
    (short : data.isShort)
    (joins : ∀ field ∈ argument, ∀ current : Option Value,
      (∀ value ∈ current, value.isShort) → (join field.2 current).isShort) :
    (combine join data argument).isShort := by
  induction argument generalizing data with
  | nil => exact short
  | cons field rest induction =>
      obtain ⟨key, value⟩ := field
      obtain ⟨joinsFirst, joinsRest⟩ := List.forall_mem_cons.mp joins
      rw [combine_cons]
      exact induction (isShort_insert short key (joinsFirst _ (isShort_get? short key))) joinsRest

theorem isShort_overlay {data argument : Fields} (shortData : data.isShort)
    (short : argument.isShort) : (data.overlay argument).isShort := by
  rw [overlay_eq_combine]
  exact isShort_combine shortData fun field member _ _ => isShort_iff.mp short field member

theorem isShort_merge {data argument : Fields} (shortData : data.isShort)
    (short : argument.isShort) : (data.merge argument).isShort := by
  rw [merge_eq_combine]
  apply isShort_combine shortData
  rintro ⟨key, value⟩ member current shortCurrent
  have shortValue : value.isShort := isShort_iff.mp short (key, value) member
  by_cases meet : ∃ inner old, value = .obj inner ∧ current = some (.obj old)
  · obtain ⟨inner, old, rfl, rfl⟩ := meet
    have smaller := sizeOf_lt_of_mem member
    rw [Value.mergeOver_obj]
    exact isShort_merge (shortCurrent _ rfl) shortValue
  · rw [Value.mergeOver_eq_self fun inner old isObject given => meet ⟨inner, old, isObject, given⟩]
    exact shortValue
termination_by sizeOf argument

end Fields

end Inlay
