namespace FiniteAutomata

universe u

/-!
# Where elements occur in a list

Whoever goes through a list can keep every element where it occurs first, or stop at the
first element that is out of place.  What is kept lists no element twice, and the place
at which one stops is determined by the list.
-/

variable {α : Type u} {elements : List α} {element : α}

/-! ## First occurrences -/

section FirstOccurrences

variable [DecidableEq α]

theorem eraseDups_append_of_mem (met : element ∈ elements) :
    (elements ++ [element]).eraseDups = elements.eraseDups := by
  rw [List.eraseDups_append]
  simp [List.removeAll, met]

theorem eraseDups_append_of_not_mem (isNew : ¬ element ∈ elements) :
    (elements ++ [element]).eraseDups = elements.eraseDups ++ [element] := by
  rw [List.eraseDups_append]
  simp [List.removeAll, isNew, List.eraseDups_cons]

theorem nodup_eraseDups (elements : List α) : elements.eraseDups.Nodup := by
  cases elements with
  | nil => exact List.nodup_nil
  | cons first later =>
    rw [List.eraseDups_cons, List.nodup_cons]
    constructor
    · simp
    · exact nodup_eraseDups _
-- What follows the first element is not the tail but what a filter leaves of it.
termination_by elements.length
decreasing_by exact Nat.lt_succ_of_le (List.length_filter_le _ _)

theorem eraseDups_of_nodup (nodup : elements.Nodup) : elements.eraseDups = elements := by
  induction elements with
  | nil => rfl
  | cons first later inductionHypothesis =>
    rcases List.nodup_cons.mp nodup with ⟨isNew, laterNodup⟩
    have allDiffer : later.filter (fun other => !other == first) = later := by
      apply List.filter_eq_self.mpr
      intro other isLater
      have differs : other ≠ first := fun same => isNew (same ▸ isLater)
      simpa using differs
    rw [List.eraseDups_cons, allDiffer, inductionHypothesis laterNodup]

end FirstOccurrences

/-! ## Cuts -/

/-- Two cuts of a list at an element agree if neither lies before the other. -/
theorem cut_unique {before after otherBefore otherAfter : List α} {other : α}
    (same : before ++ element :: after = otherBefore ++ other :: otherAfter)
    (notEarlier : forall middle, otherBefore = before ++ element :: middle ->
      after ≠ middle ++ other :: otherAfter)
    (notLater : forall middle, before = otherBefore ++ other :: middle ->
      otherAfter ≠ middle ++ element :: after) :
    before = otherBefore ∧ element = other := by
  rcases List.append_eq_append_iff.mp same with ⟨middle, split, rest⟩ | ⟨middle, split, rest⟩
  · rcases List.cons_eq_append_iff.mp rest with ⟨nothing, atCut⟩ | ⟨later, atCut, remains⟩
    · rw [nothing, List.append_nil] at split
      exact ⟨split.symm, (List.cons.inj atCut).1.symm⟩
    · rw [atCut] at split
      exact absurd remains (notEarlier later split)
  · rcases List.cons_eq_append_iff.mp rest with ⟨nothing, atCut⟩ | ⟨later, atCut, remains⟩
    · rw [nothing, List.append_nil] at split
      exact ⟨split, (List.cons.inj atCut).1⟩
    · rw [atCut] at split
      exact absurd remains (notLater later split)

end FiniteAutomata
