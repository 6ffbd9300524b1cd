import FiniteAutomata.Determinization.Basic
import FiniteAutomata.Proofs.Determinization.Order
import FiniteAutomata.Proofs.Dfa.Lookup
import FiniteAutomata.Proofs.Nfa.Reachability

namespace FiniteAutomata
namespace Nfa

/-!
# The deterministic automaton follows the nondeterministic one

As long as a word keeps to the alphabet, the state of the deterministic automaton
is the closed set of states of the nondeterministic one.  The first other
character kills both runs: the table has no rule for it, and no move reads it.
The two ways of being dead are told apart by their states, but neither accepts.

The simulation begins at any discovered set.  It may also begin at a set that is
not closed yet, as the run of a nondeterministic automaton does, because only
the closure of a set decides how the run continues.
-/

variable {nfa : Nfa}

/-! ## The discovered sets and their rules -/

/-- The sets of states that are found from the closure of the start. -/
def discovered (nfa : Nfa) : List StateSet := (nfa.explore [nfa.closure nfa.initial]).known

theorem start_mem_discovered (nfa : Nfa) : nfa.toDfa.start ∈ nfa.discovered :=
  (seeds_prefix_known nfa _).subset (List.mem_eraseDups.mpr List.mem_cons_self)

theorem advance_mem_discovered {state : StateSet} {character : Char}
    (isDiscovered : state ∈ nfa.discovered) (inAlphabet : character ∈ nfa.alphabet) :
    nfa.advance state character ∈ nfa.discovered :=
  advance_mem_known isDiscovered inAlphabet

/-- All discovered sets are closed under free moves. -/
theorem closure_of_mem_discovered :
    forall state, state ∈ nfa.discovered -> nfa.closure state = state := by
  apply holds_of_mem_known
  · intro state character _ _
    exact closure_closure nfa (nfa.read state character)
  · intro state isSeed
    rw [List.mem_singleton.mp isSeed]
    exact closure_closure nfa nfa.initial

/-- The table has a rule for every discovered set and every character of the
alphabet, and no others. -/
theorem mem_rules_toDfa {state target : StateSet} {character : Char} :
    ⟨state, character, target⟩ ∈ nfa.toDfa.table.rules ↔
      state ∈ nfa.discovered ∧ character ∈ nfa.alphabet ∧
        nfa.advance state character = target :=
  mem_rules_explore

theorem deterministic_toDfa (nfa : Nfa) : Deterministic nfa.toDfa.table.rules := by
  rintro ⟨source, symbol, target⟩ ⟨_, _, other⟩ firstListed secondListed sameSource sameSymbol
  cases sameSource
  cases sameSymbol
  have first := (mem_rules_toDfa.mp firstListed).2.2
  have second := (mem_rules_toDfa.mp secondListed).2.2
  exact first.symm.trans second

theorem next?_toDfa {state : StateSet} {character : Char}
    (isDiscovered : state ∈ nfa.discovered) (inAlphabet : character ∈ nfa.alphabet) :
    nfa.toDfa.table.next? state character = some (nfa.advance state character) :=
  (Table.next?_eq_some_iff (deterministic_toDfa nfa)).mpr
    (mem_rules_toDfa.mpr ⟨isDiscovered, inAlphabet, rfl⟩)

theorem next?_toDfa_of_foreign {state : StateSet} {character : Char}
    (foreign : ¬ character ∈ nfa.alphabet) :
    nfa.toDfa.table.next? state character = none := by
  apply Table.next?_eq_none_iff.mpr
  intro target listed
  exact foreign (mem_rules_toDfa.mp listed).2.1

/-- The states of the deterministic automaton, which are gathered from its table, come in
the order in which they were discovered. -/
theorem states_toDfa (nfa : Nfa) : nfa.toDfa.states = nfa.discovered :=
  (known_explore nfa [nfa.closure nfa.initial]).symm

theorem mem_states_toDfa {state : StateSet} :
    state ∈ nfa.toDfa.states ↔ state ∈ nfa.discovered := by
  rw [states_toDfa]

theorem mem_accepting_toDfa {state : StateSet} :
    state ∈ nfa.toDfa.accepting ↔
      state ∈ nfa.discovered ∧ nfa.isAccepting state = true := by
  change state ∈ (nfa.discovered.filter nfa.isAccepting).eraseDups ↔ _
  rw [List.mem_eraseDups, List.mem_filter]

/-! ## The simulation -/

/-- Within the alphabet the deterministic run is in the closed set of states of the
other run, and this set was discovered. -/
theorem readWord_toDfa {state seed : StateSet} {word : Word}
    (isDiscovered : state ∈ nfa.discovered) (sameStates : nfa.closure seed = state)
    (inside : forall character, character ∈ word -> character ∈ nfa.alphabet) :
    nfa.toDfa.readWord (some state) word = some (nfa.closure (nfa.readWord seed word)) ∧
      nfa.closure (nfa.readWord seed word) ∈ nfa.discovered := by
  induction word generalizing state seed with
  | nil =>
    rw [← sameStates] at isDiscovered ⊢
    exact ⟨rfl, isDiscovered⟩
  | cons character rest inductionHypothesis =>
    have inAlphabet := inside character List.mem_cons_self
    rw [Dfa.readWord_cons, next?_toDfa isDiscovered inAlphabet]
    apply inductionHypothesis
    · exact advance_mem_discovered isDiscovered inAlphabet
    · rw [← sameStates, advance, read_closure]
    · intro other member
      exact inside other (List.mem_cons_of_mem character member)

theorem readWord_toDfa_of_foreign {state : StateSet} {word : Word} {character : Char}
    (isDiscovered : state ∈ nfa.discovered) (met : character ∈ word)
    (foreign : ¬ character ∈ nfa.alphabet) :
    nfa.toDfa.readWord (some state) word = none := by
  induction word generalizing state with
  | nil => exact absurd met List.not_mem_nil
  | cons first rest inductionHypothesis =>
    rw [Dfa.readWord_cons]
    by_cases inAlphabet : first ∈ nfa.alphabet
    · rw [next?_toDfa isDiscovered inAlphabet]
      apply inductionHypothesis (advance_mem_discovered isDiscovered inAlphabet)
      rcases List.mem_cons.mp met with same | later
      · exact absurd inAlphabet (same ▸ foreign)
      · exact later
    · rw [next?_toDfa_of_foreign inAlphabet, Dfa.readWord_none]

/-- A discovered set accepts exactly as the nondeterministic automaton does in it. -/
theorem isAccepting_toDfa {state : StateSet} (isDiscovered : state ∈ nfa.discovered) :
    nfa.toDfa.isAccepting (some state) = nfa.isAccepting state := by
  apply Bool.eq_iff_iff.mpr
  change decide (state ∈ nfa.toDfa.accepting) = true ↔ _
  rw [decide_eq_true_eq, mem_accepting_toDfa]
  exact and_iff_right isDiscovered

/-- A word keeps to the alphabet or has a character that is not in it. -/
theorem inside_or_foreign (nfa : Nfa) (word : Word) :
    (forall character, character ∈ word -> character ∈ nfa.alphabet) ∨
      exists character, character ∈ word ∧ ¬ character ∈ nfa.alphabet := by
  by_cases met : exists character, character ∈ word ∧ ¬ character ∈ nfa.alphabet
  · exact Or.inr met
  · exact Or.inl fun character member => Decidable.byContradiction fun foreign =>
      met ⟨character, member, foreign⟩

/-- What two runs have in common after a word, when the deterministic one begins in
`state` and the nondeterministic one in all states of `seed`. -/
structure RunsAgree (nfa : Nfa) (state seed : StateSet) (word : Word) : Prop where
  /-- Within the alphabet the state is the closed set of states. -/
  alive : (forall character, character ∈ word -> character ∈ nfa.alphabet) ->
    nfa.toDfa.readWord (some state) word = some (nfa.closure (nfa.readWord seed word))
  /-- Any other character leaves one run dead and the other without states. -/
  dead : (exists character, character ∈ word ∧ ¬ character ∈ nfa.alphabet) ->
    nfa.toDfa.readWord (some state) word = none ∧
      nfa.closure (nfa.readWord seed word) = ∅
  /-- Either both runs accept or neither does. -/
  accepting : nfa.toDfa.isAccepting (nfa.toDfa.readWord (some state) word) =
    nfa.isAccepting (nfa.readWord seed word)

theorem runsAgree_of_mem_discovered {state seed : StateSet}
    (isDiscovered : state ∈ nfa.discovered) (sameStates : nfa.closure seed = state)
    (word : Word) : RunsAgree nfa state seed word := by
  have dead : (exists character, character ∈ word ∧ ¬ character ∈ nfa.alphabet) ->
      nfa.toDfa.readWord (some state) word = none ∧
        nfa.closure (nfa.readWord seed word) = ∅ := by
    rintro ⟨character, met, foreign⟩
    exact ⟨readWord_toDfa_of_foreign isDiscovered met foreign,
      closure_readWord_eq_empty met foreign⟩
  refine ⟨fun inside => (readWord_toDfa isDiscovered sameStates inside).1, dead, ?_⟩
  rcases inside_or_foreign nfa word with inside | met
  · rcases readWord_toDfa isDiscovered sameStates inside with ⟨current, reached⟩
    rw [current, isAccepting_toDfa reached, isAccepting_closure]
  · rcases dead met with ⟨stopped, noStates⟩
    rw [stopped, isAccepting_eq_false noStates]
    rfl

/-- Both automata accept the same words. -/
theorem accepts_toDfa (nfa : Nfa) (word : Word) :
    nfa.toDfa.accepts word = nfa.accepts word :=
  (runsAgree_of_mem_discovered (start_mem_discovered nfa) rfl word).accepting

/-- The simulation as a whole: it holds from the start, where the nondeterministic
run begins in a single state, and from any state of the deterministic automaton. -/
theorem determinization_agrees (nfa : Nfa) :
    (forall word : Word, RunsAgree nfa nfa.toDfa.start nfa.initial word ∧
      nfa.toDfa.accepts word = nfa.accepts word) ∧
    (forall state, state ∈ nfa.toDfa.states ->
      forall word : Word, RunsAgree nfa state state word) := by
  constructor
  · intro word
    exact ⟨runsAgree_of_mem_discovered (start_mem_discovered nfa) rfl word,
      accepts_toDfa nfa word⟩
  · intro state member word
    have isDiscovered := mem_states_toDfa.mp member
    exact runsAgree_of_mem_discovered isDiscovered
      (closure_of_mem_discovered state isDiscovered) word

/-- Free moves lead from state 0 to state 1 and back, and characters around a cycle
through state 2. -/
def freeCycle : Nfa where
  start := 0
  accepting := SortedSet.ofList [2]
  moves := [.free 0 1, .free 1 0, .reading 1 'a' 2, .reading 2 'b' 0]

theorem determinization_agrees_freeCycle :
    SortedSet.ofList [0, 1] ∈ freeCycle.toDfa.states ∧
      RunsAgree freeCycle (SortedSet.ofList [0, 1]) (SortedSet.ofList [0, 1])
        ['a', 'b', 'c', 'a'] := by
  have member : SortedSet.ofList [0, 1] ∈ freeCycle.toDfa.states := by decide +kernel
  exact ⟨member, (determinization_agrees freeCycle).2 _ member _⟩

end Nfa
end FiniteAutomata
