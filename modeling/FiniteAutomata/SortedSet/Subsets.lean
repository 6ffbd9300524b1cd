import FiniteAutomata.SortedSet.Lemmas

namespace FiniteAutomata

universe u

/-!
# The sets that can be made from finitely many elements

`SortedSet.subsets elements` lists every set whose members are all among
`elements`. There are finitely many, which is why a search that only ever finds
such sets must end.
-/

namespace SortedSet

variable {α : Type u} [LT α] [LE α] [Std.IsLinearOrder α] [Std.LawfulOrderLT α]
  [DecidableLT α]

/-- Every set all of whose members are among `elements`. -/
def subsets : List α -> List (SortedSet α)
  | [] => [∅]
  | head :: tail => subsets tail ++ (subsets tail).map fun set => set.insert head

theorem mem_subsets {elements : List α} {set : SortedSet α} [DecidableEq α] :
    set ∈ subsets elements ↔ forall element, element ∈ set -> element ∈ elements := by
  induction elements generalizing set with
  | nil =>
    simp only [subsets, List.mem_singleton, List.not_mem_nil]
    constructor
    · rintro rfl element member
      exact not_mem_empty element member
    · intro noMembers
      ext element
      exact ⟨fun member => absurd member (noMembers element),
        fun member => absurd member (not_mem_empty element)⟩
  | cons head tail inductionHypothesis =>
    rw [subsets, List.mem_append, List.mem_map, inductionHypothesis]
    constructor
    · rintro (within | ⟨smaller, smallerListed, rfl⟩) element member
      · exact List.mem_cons_of_mem head (within element member)
      · rcases mem_insert.mp member with equal | inSmaller
        · exact equal ▸ List.mem_cons_self
        · exact List.mem_cons_of_mem head
            (inductionHypothesis.mp smallerListed element inSmaller)
    · intro within
      by_cases headMember : head ∈ set
      · refine Or.inr ⟨set.filter fun element => decide (element ≠ head),
          inductionHypothesis.mpr fun element member => ?_, ?_⟩
        · obtain ⟨inSet, notHead⟩ := mem_filter.mp member
          exact (List.mem_cons.mp (within element inSet)).resolve_left
            (of_decide_eq_true notHead)
        · ext element
          rw [mem_insert, mem_filter]
          by_cases equal : element = head
          · simp [equal, headMember]
          · simp [equal]
      · refine Or.inl fun element member => ?_
        refine (List.mem_cons.mp (within element member)).resolve_left fun equal => ?_
        exact headMember (equal ▸ member)

end SortedSet

end FiniteAutomata
