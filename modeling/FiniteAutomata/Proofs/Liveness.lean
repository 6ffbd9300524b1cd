import FiniteAutomata.Proofs.Matching
import FiniteAutomata.Proofs.Thompson.Trim

namespace FiniteAutomata

/-!
# A run dies when nothing can match any more

The automaton of a pattern has no useless states.  While a run has states left, the text
can therefore be continued to one that matches, and a run that has lost its states has
read something with which no matching text begins.  The deterministic automaton shows this
in two ways: it is in the empty set after a character that the pattern has elsewhere, and
without a state after a character that the pattern does not have at all.
-/

open Thompson (assemble built_assemble_nothing)

namespace Nfa

/-- The deterministic run is in the empty set or in no state at all exactly if the other run
has no states. -/
theorem dead_toDfa_iff (nfa : Nfa) (word : Word) :
    nfa.toDfa.readWord (some nfa.toDfa.start) word = none ∨
        nfa.toDfa.readWord (some nfa.toDfa.start) word = some ∅ ↔
      nfa.statesAfter word = ∅ := by
  have agree := runsAgree_of_mem_discovered (start_mem_discovered nfa) rfl word
  rcases inside_or_foreign nfa word with inside | met
  · rw [agree.alive inside]
    simp [statesAfter]
  · rcases agree.dead met with ⟨stopped, noStates⟩
    exact iff_of_true (Or.inl stopped) noStates

end Nfa

namespace Pattern

/-- The states of the automaton are those that were taken from the supply. -/
theorem mem_states_toNfa {pattern : Pattern} (fits : pattern.origins.length < UInt32.size)
    {state : StateId} : state ∈ pattern.toNfa.states ↔ state.toNat < pattern.origins.length :=
  (built_assemble_nothing fits).2.mem_states_iff.trans (and_iff_right (Nat.zero_le _))

theorem useful_toNfa {pattern : Pattern} (fits : pattern.origins.length < UInt32.size)
    {state : StateId} (isState : state.toNat < pattern.origins.length) :
    pattern.toNfa.Reaches state ∧ pattern.toNfa.CanAccept state := by
  have isTrim := (built_assemble_nothing fits).2.isTrim
  exact ⟨isTrim.reaches state ⟨Nat.zero_le _, isState⟩,
    isTrim.canAccept state ⟨Nat.zero_le _, isState⟩⟩

theorem statesAfter_toNfa_eq_empty_iff {pattern : Pattern}
    (fits : pattern.origins.length < UInt32.size) (word : Word) :
    pattern.toNfa.statesAfter word = ∅ ↔
      forall whole, word <+: whole -> ¬ pattern.Matches whole := by
  have useful : forall state, state ∈ pattern.toNfa.states -> pattern.toNfa.CanAccept state :=
    fun state isState => (useful_toNfa fits ((mem_states_toNfa fits).mp isState)).2
  simp only [Nfa.statesAfter_eq_empty_iff useful, accepts_toNfa fits]

/-- A run over a text has no states left exactly if no matching text begins with what it has
read, and then, and only then, the deterministic run is in the empty set or dead.  This is
so because every state that was made for the pattern can be reached and can accept. -/
theorem run_dies_iff_hopeless (pattern : Pattern)
    (fits : pattern.toLabelledNfa.origins.length < UInt32.size) :
    (forall word : Word, pattern.toNfa.statesAfter word = ∅ ↔
      forall whole, word <+: whole -> ¬ pattern.Matches whole) ∧
    (forall word : Word,
      (pattern.toDfa.readWord (some pattern.toDfa.start) word = none ∨
          pattern.toDfa.readWord (some pattern.toDfa.start) word = some ∅) ↔
        forall whole, word <+: whole -> ¬ pattern.Matches whole) ∧
    (forall state, state < (assemble pattern {}).2.supply.allocated ->
      pattern.toNfa.Reaches state ∧ pattern.toNfa.CanAccept state) := by
  rw [length_origins_toLabelledNfa] at fits
  refine ⟨statesAfter_toNfa_eq_empty_iff fits, fun word => ?_, fun state allocated => ?_⟩
  · rw [← statesAfter_toNfa_eq_empty_iff fits word]
    exact Nfa.dead_toDfa_iff pattern.toNfa word
  · rw [UInt32.lt_iff_toNat_lt, (built_assemble_nothing fits).1] at allocated
    exact useful_toNfa fits allocated

/-- A pair of characters, any number of times. -/
def repeatedPair : Pattern := .star (.concat (.literal 'a') (.literal 'b'))

/-- A second `a` in a row leads to the empty set and any third character to no state.  Every
state that was made is reached and can accept. -/
theorem run_dies_iff_hopeless_repeatedPair :
    repeatedPair.toLabelledNfa.origins.length < UInt32.size ∧
      (assemble repeatedPair {}).2.supply.allocated = 5 ∧
      repeatedPair.toNfa.Reaches 4 ∧ repeatedPair.toNfa.CanAccept 4 ∧
      (forall whole, ['a', 'a'] <+: whole -> ¬ repeatedPair.Matches whole) ∧
      repeatedPair.toDfa.readWord (some repeatedPair.toDfa.start) ['a', 'a'] = some ∅ ∧
      repeatedPair.toDfa.readWord (some repeatedPair.toDfa.start) ['a', 'c'] = none ∧
      forall whole, ['a', 'c'] <+: whole -> ¬ repeatedPair.Matches whole := by
  have fits : repeatedPair.toLabelledNfa.origins.length < UInt32.size := by decide
  have noStates : repeatedPair.toDfa.readWord (some repeatedPair.toDfa.start) ['a', 'a'] =
      some ∅ := by
    decide +kernel
  have stopped : repeatedPair.toDfa.readWord (some repeatedPair.toDfa.start) ['a', 'c'] =
      none := by
    decide +kernel
  have allocated : (assemble repeatedPair {}).2.supply.allocated = 5 := by decide +kernel
  rcases run_dies_iff_hopeless repeatedPair fits with ⟨_, dies, useful⟩
  rcases useful 4 (by rw [allocated]; decide) with ⟨reaches, canAccept⟩
  exact ⟨fits, allocated, reaches, canAccept, (dies _).mp (Or.inr noStates), noStates, stopped,
    (dies _).mp (Or.inl stopped)⟩

end Pattern
end FiniteAutomata
