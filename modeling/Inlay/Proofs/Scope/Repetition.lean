import Inlay.Proofs.Scope.Written

/-!
Runs of a resolver in a row. Each one walks over the same directives from the same data, so it adds
the same regions and ends in the same way; nothing but the list of regions tells later runs from the
first.
-/

namespace Inlay

namespace Scope

/-- A run from one point to the point where it is over, with the regions that are completed. -/
inductive Collects (text : Text) : Point → List Region → Point → Prop
  | none {point : Point} : (∀ found, ¬Completes point found) → Collects text point [] point
  | last {point : Point} {found : Region} :
      Completes point found → Collects text point [found] point
  | pass {point next last : Point} {regions : List Region} :
      Continues text point next → (∀ found, ¬Completes point found) →
      Collects text next regions last → Collects text point regions last
  | complete {point next last : Point} {found : Region} {regions : List Region} :
      Continues text point next → Completes point found →
      Collects text next regions last → Collects text point (found :: regions) last

theorem Continues.collects {text : Text} {point next last : Point} {regions : List Region}
    (continues : Continues text point next) (collects : Collects text next regions last)
    {event : Event} (happens : Happens point event) :
    Collects text point (event.region?.toList ++ regions) last := by
  cases region : event.region? with
  | none =>
      refine .pass continues ?_ collects
      intro found here
      cases region.symm.trans (happens.completes_iff.mp here)
  | some found => exact .complete continues (happens.completes_iff.mpr region) collects

theorem exists_collects_ends (text : Text) (point : Point) :
    ∃ last, Collects text point (point.run text).regions last ∧
      Ends text last (point.run text).outcome := by
  rcases continues_or_ends text point with ⟨next, continues⟩ | ⟨outcome, ends⟩
  · -- What is left to walk gets shorter, and the point where it is over stays the same.
    have shorter := continues.1.length_lt
    obtain ⟨last, collects, ends⟩ := exists_collects_ends text next
    obtain ⟨event, happens, run⟩ := continues.run_eq_after
    rw [run, Traced.regions_after, Traced.outcome_after]
    exact ⟨last, continues.collects collects happens, ends⟩
  · refine ⟨point, ?_, by rwa [ends.outcome_run]⟩
    rcases ends.regions_run with ⟨found, here, regions⟩ | ⟨notHere, regions⟩
    · rw [regions]
      exact .last here
    · rw [regions]
      exact .none notHere
termination_by point.ahead.length

end Scope

namespace Resolver

/-- Runs in a row: the resolver after the last of them, and what each of them returned. -/
def runs (resolver : Resolver) : Nat → Resolver × List (Except Extraction.Error (List Region))
  | 0 => (resolver, [])
  | count + 1 =>
      let first := resolver.resolve
      let later := first.1.runs count
      (later.1, first.2 :: later.2)

def completed (resolver : Resolver) : List Region :=
  (Scope.resolve resolver.text resolver.data resolver.directives).regions

theorem resolve_fst (resolver : Resolver) :
    resolver.resolve.1 = { resolver with regions := resolver.regions ++ resolver.completed } := rfl

theorem completed_resolve (resolver : Resolver) :
    resolver.resolve.1.completed = resolver.completed := rfl

theorem resolve_snd_of_ok {resolver : Resolver}
    (succeeded : (Scope.resolve resolver.text resolver.data resolver.directives).outcome = .ok ()) :
    resolver.resolve.2 = .ok (resolver.regions ++ resolver.completed) := by
  rw [resolve, succeeded]
  rfl

theorem append_flatten_replicate (regions added : List Region) (count : Nat) :
    regions ++ added ++ (List.replicate count added).flatten =
      regions ++ (List.replicate (count + 1) added).flatten := by
  rw [List.replicate_succ, List.flatten_cons, List.append_assoc]

theorem runs_fst (resolver : Resolver) (count : Nat) :
    (resolver.runs count).1 =
      { resolver with
        regions := resolver.regions ++ (List.replicate count resolver.completed).flatten } := by
  induction count generalizing resolver with
  | zero => simp [runs]
  | succ count induction =>
      rw [runs, induction, completed_resolve, resolve_fst]
      simp only [append_flatten_replicate]

theorem length_runs_snd (resolver : Resolver) (count : Nat) :
    (resolver.runs count).2.length = count := by
  induction count generalizing resolver with
  | zero => rfl
  | succ count induction => rw [runs, List.length_cons, induction]

theorem resolve_snd_of_error {resolver : Resolver} {error : Extraction.Error}
    (failed : (Scope.resolve resolver.text resolver.data resolver.directives).outcome =
      .error error) : resolver.resolve.2 = .error error := by
  rw [resolve, failed]
  rfl

theorem runs_snd_of_error {resolver : Resolver} {error : Extraction.Error}
    (failed : (Scope.resolve resolver.text resolver.data resolver.directives).outcome =
      .error error) (count : Nat) :
    (resolver.runs count).2 = List.replicate count (.error error) := by
  induction count generalizing resolver with
  | zero => rfl
  | succ count induction =>
      have later := @induction resolver.resolve.1 failed
      rw [runs, later, resolve_snd_of_error failed, List.replicate_succ]

theorem getElem?_runs_snd_of_ok {resolver : Resolver}
    (succeeded : (Scope.resolve resolver.text resolver.data resolver.directives).outcome = .ok ())
    {index count : Nat} (inside : index < count) :
    (resolver.runs count).2[index]? =
      some (.ok (resolver.regions ++
        (List.replicate (index + 1) resolver.completed).flatten)) := by
  induction count generalizing resolver index with
  | zero => contradiction
  | succ count induction =>
      rw [runs]
      cases index with
      | zero =>
          rw [List.getElem?_cons_zero, resolve_snd_of_ok succeeded, List.replicate_one,
            List.flatten_singleton]
      | succ index =>
          have insideLater : index < count := Nat.lt_of_succ_lt_succ inside
          have later := @induction resolver.resolve.1 succeeded index insideLater
          rw [List.getElem?_cons_succ, later, completed_resolve, resolve_fst,
            append_flatten_replicate]

/-- Runs of a fresh resolver change nothing but its regions, which are then one copy for each run of
those that the first one added. Either all runs succeed, and each returns the copies up to its own;
or all fail with the same error, and a copy consists of the regions completed before the fault. -/
theorem runs_add_copies (text : Text) (directives : List Directive) (data : Fields) (count : Nat) :
    let resolver : Resolver := { text, directives, data }
    let added := resolver.resolve.1.regions
    (resolver.runs count).1 =
      { text, directives, data, regions := (List.replicate count added).flatten } ∧
    (resolver.runs count).2.length = count ∧
    ((∃ last, Scope.Collects text ⟨data, [], directives⟩ added last ∧
        Scope.Ends text last (.ok ()) ∧
        ∀ index < count, ∃ regions, (resolver.runs count).2[index]? = some (.ok regions) ∧
          regions = (List.replicate (index + 1) added).flatten ∧
          regions.length = (index + 1) * added.length) ∨
      ∃ last error, Scope.Collects text ⟨data, [], directives⟩ added last ∧
        Scope.Ends text last (.error error) ∧
        (resolver.runs count).2 = List.replicate count (.error error)) := by
  intro resolver added
  have kept : (resolver.runs count).1 =
      { resolver with regions := (List.replicate count added).flatten } :=
    resolver.runs_fst count
  refine ⟨kept, resolver.length_runs_snd count, ?_⟩
  obtain ⟨last, collects, ends⟩ := Scope.exists_collects_ends text ⟨data, [], directives⟩
  cases ended : (Scope.resolve text data directives).outcome with
  | ok =>
      refine .inl ⟨last, collects, ended ▸ ends, ?_⟩
      intro index inside
      refine ⟨_, getElem?_runs_snd_of_ok ended inside, rfl, ?_⟩
      simp [added, resolver, resolve_fst]
  | error error => exact .inr ⟨last, error, collects, ended ▸ ends, runs_snd_of_error ended count⟩

end Resolver

end Inlay
