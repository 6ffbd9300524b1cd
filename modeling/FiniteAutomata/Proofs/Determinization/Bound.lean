import FiniteAutomata.Proofs.Determinization.Discovery
import Mathlib.Algebra.Group.Nat.Defs
import Mathlib.Data.List.Perm.Subperm

namespace FiniteAutomata

universe u

/-!
# An exploration ends, and how much it can find

Every round expands one set, so an exploration takes as many rounds as it knows sets in
the end.  The sets that it finds besides the seeds hold only targets of moves.  The seeds
may hold anything, but they are finitely many.  A list of different subsets of a set with
`n` members has at most `2 ^ n` entries, and no set is listed twice, which bounds the number
of rounds.
-/

/-! ## Counting subsets -/

namespace SortedSet

variable {α : Type u} [LT α] [LE α] [Std.IsLinearOrder α] [Std.LawfulOrderLT α] [DecidableLT α]

theorem length_subsets (elements : List α) :
    (subsets elements).length = 2 ^ elements.length := by
  induction elements with
  | nil => rfl
  | cons head tail inductionHypothesis =>
    rw [subsets, List.length_append, List.length_map, inductionHypothesis, List.length_cons,
      Nat.pow_succ]
    omega

/-- There are not more different subsets of a set than its size allows. -/
theorem length_le_two_pow_size [DecidableEq α] {bound : SortedSet α} {listed : List (SortedSet α)}
    (nodup : listed.Nodup) (within : forall set, set ∈ listed -> set ⊆ bound) :
    listed.length ≤ 2 ^ bound.size := by
  rw [size, ← length_subsets]
  apply nodup.length_le_of_subset
  intro set isListed
  exact mem_subsets.mpr (within set isListed)

end SortedSet

/-! ## Rounds -/

namespace Exploration

variable {nfa : Nfa}

/-- The exploration after so many more expansions, if there are that many. -/
def after? (nfa : Nfa) : Nat -> Exploration -> Option Exploration
  | 0, exploration => some exploration
  | rounds + 1, exploration => (exploration.step? nfa).bind (after? nfa rounds)

/-- One more set is expanded in every round. -/
theorem length_expanded_step {exploration next : Exploration}
    (stepped : exploration.step? nfa = some next) :
    next.expanded.length = exploration.expanded.length + 1 := by
  rcases step?_cases stepped with ⟨current, later, _, follows⟩
  rw [follows.expanded_eq, List.length_append, List.length_singleton]

theorem step?_run (nfa : Nfa) (exploration : Exploration) :
    (exploration.run nfa).step? nfa = none := by
  rw [step?, pending_run]

theorem exists_after?_eq_run (exploration : Exploration) :
    exists rounds, after? nfa rounds exploration = some (exploration.run nfa) ∧
      (exploration.run nfa).expanded.length = exploration.expanded.length + rounds := by
  fun_induction run nfa exploration with
  | case1 exploration stopped => exact ⟨0, rfl, rfl⟩
  | case2 exploration next stepped inductionHypothesis =>
    rcases inductionHypothesis with ⟨rounds, reached, counted⟩
    refine ⟨rounds + 1, ?_, ?_⟩
    · rw [after?, stepped, Option.bind_some, reached]
    · rw [counted, length_expanded_step stepped]
      omega

end Exploration

namespace Nfa

variable {nfa : Nfa}

/-- The exploration takes exactly as many rounds as there are known sets. -/
theorem after?_length_known (nfa : Nfa) (seeds : List StateSet) :
    Exploration.after? nfa (nfa.explore seeds).known.length (Exploration.begin seeds) =
      some (nfa.explore seeds) := by
  rcases Exploration.exists_after?_eq_run (Exploration.begin seeds) with ⟨rounds, reached, counted⟩
  have expandedAll : (nfa.explore seeds).known.length = rounds := by
    rw [← expanded_explore]
    exact counted.trans (Nat.zero_add rounds)
  rw [expandedAll]
  exact reached

/-! ## The number of known sets -/

theorem seed_or_subset_targetStates {seeds : List StateSet} :
    forall state, state ∈ (nfa.explore seeds).known -> state ∈ seeds ∨ state ⊆ nfa.targetStates := by
  apply holds_of_mem_known
  · intro state character _ _
    exact Or.inr (advance_subset_targetStates nfa state character)
  · exact fun _ isSeed => Or.inl isSeed

theorem length_known_le (nfa : Nfa) (seeds : List StateSet) :
    (nfa.explore seeds).known.length ≤ seeds.eraseDups.length + 2 ^ nfa.targetStates.size := by
  rcases seeds_prefix_known nfa seeds with ⟨found, split⟩
  have nodup := nodup_known nfa seeds
  rw [← split, List.nodup_append] at nodup
  have foundWithin : forall state, state ∈ found -> state ⊆ nfa.targetStates := by
    intro state isFound
    have isKnown : state ∈ (nfa.explore seeds).known :=
      split ▸ List.mem_append_right _ isFound
    rcases seed_or_subset_targetStates state isKnown with isSeed | within
    · exact absurd rfl (nodup.2.2 state (List.mem_eraseDups.mpr isSeed) state isFound)
    · exact within
  rw [← split, List.length_append]
  exact Nat.add_le_add_left (SortedSet.length_le_two_pow_size nodup.2.1 foundWithin) _

theorem length_states_toDfa_le (nfa : Nfa) : nfa.toDfa.states.length ≤ 2 ^ nfa.stateCount := by
  rw [states_toDfa]
  exact SortedSet.length_le_two_pow_size (nodup_known nfa _) fun _ isDiscovered =>
    subset_states_of_mem_discovered isDiscovered

/-- From any seeds an exploration ends after one round for each set that it knows by then.
Besides the seeds these are subsets of the targets of moves, and the states of the
deterministic automaton are subsets of the states of the nondeterministic one. -/
theorem exploration_ends_within_bound (nfa : Nfa) :
    (forall seeds : List StateSet,
      Exploration.after? nfa (nfa.explore seeds).known.length (Exploration.begin seeds) =
          some (nfa.explore seeds) ∧
        (nfa.explore seeds).step? nfa = none ∧
        (nfa.explore seeds).known.length ≤
          seeds.eraseDups.length + 2 ^ nfa.targetStates.size) ∧
    nfa.toDfa.states.length ≤ 2 ^ nfa.stateCount :=
  ⟨fun seeds => ⟨after?_length_known nfa seeds, Exploration.step?_run nfa _,
    length_known_le nfa seeds⟩, length_states_toDfa_le nfa⟩

end Nfa
end FiniteAutomata
