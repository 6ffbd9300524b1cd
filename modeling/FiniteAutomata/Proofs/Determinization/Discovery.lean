import FiniteAutomata.Proofs.Determinization.Simulation

namespace FiniteAutomata

/-!
# The known sets are the reachable sets

An exploration ends with every set that a word over the alphabet reaches from a seed,
and with no other.  A set that waits is expanded in its turn, so what is known is closed
under reading a character; and whatever becomes known was reached from a set that was
known before.

Explored from the closure of the start, the sets are those in which a run of the
nondeterministic automaton can be, and they are the states of the deterministic one.
-/

namespace Nfa

variable {nfa : Nfa}

/-! ## Reaching a set by a word -/

/-- The word is a word over the alphabet. -/
def InAlphabet (nfa : Nfa) (word : Word) : Prop :=
  forall character, character ∈ word -> character ∈ nfa.alphabet

/-- The set that is reached by reading the characters of a word one after the other, with
the states closed under free moves after each of them. -/
def advanceWord (nfa : Nfa) (seed : StateSet) (word : Word) : StateSet :=
  word.foldl nfa.advance seed

theorem advanceWord_append_singleton (nfa : Nfa) (seed : StateSet) (word : Word)
    (character : Char) : nfa.advanceWord seed (word ++ [character]) =
      nfa.advance (nfa.advanceWord seed word) character := by
  unfold advanceWord
  rw [List.foldl_append]
  rfl

/-- Closing the states after every character comes to the same as closing them once at the
end, provided that they are closed at the beginning. -/
theorem advanceWord_closure (nfa : Nfa) (seed : StateSet) (word : Word) :
    nfa.advanceWord (nfa.closure seed) word = nfa.closure (nfa.readWord seed word) := by
  induction word generalizing seed with
  | nil => rfl
  | cons character rest inductionHypothesis =>
    change nfa.advanceWord (nfa.advance (nfa.closure seed) character) rest = _
    rw [advance, read_closure, inductionHypothesis]
    rfl

theorem inAlphabet_nil (nfa : Nfa) : nfa.InAlphabet [] :=
  fun _ member => absurd member List.not_mem_nil

theorem InAlphabet.append_singleton {word : Word} {character : Char} (inside : nfa.InAlphabet word)
    (inAlphabet : character ∈ nfa.alphabet) : nfa.InAlphabet (word ++ [character]) := by
  intro other member
  rcases List.mem_append.mp member with isEarlier | isLast
  · exact inside other isEarlier
  · exact List.mem_singleton.mp isLast ▸ inAlphabet

theorem advanceWord_mem_known {seeds : List StateSet} {seed : StateSet} {word : Word}
    (isKnown : seed ∈ (nfa.explore seeds).known) (inside : nfa.InAlphabet word) :
    nfa.advanceWord seed word ∈ (nfa.explore seeds).known := by
  induction word generalizing seed with
  | nil => exact isKnown
  | cons character rest inductionHypothesis =>
    apply inductionHypothesis
    · exact advance_mem_known isKnown (inside character List.mem_cons_self)
    · exact fun other member => inside other (List.mem_cons_of_mem character member)

/-- What is known at the end is what words over the alphabet reach from the seeds. -/
theorem mem_known_iff {seeds : List StateSet} {state : StateSet} :
    state ∈ (nfa.explore seeds).known ↔
      exists seed word, seed ∈ seeds ∧ nfa.InAlphabet word ∧ nfa.advanceWord seed word = state := by
  constructor
  · -- A step makes the word that leads to a set one character longer.
    revert state
    apply holds_of_mem_known
    · rintro state character ⟨seed, word, isSeed, inside, reached⟩ inAlphabet
      refine ⟨seed, word ++ [character], isSeed, inside.append_singleton inAlphabet, ?_⟩
      rw [advanceWord_append_singleton, reached]
    · intro seed isSeed
      exact ⟨seed, [], isSeed, inAlphabet_nil nfa, rfl⟩
  · rintro ⟨seed, word, isSeed, inside, reached⟩
    have seedKnown := (seeds_prefix_known nfa seeds).subset (List.mem_eraseDups.mpr isSeed)
    rw [← reached]
    exact advanceWord_mem_known seedKnown inside

/-- What an exploration from the given seeds is to find. -/
structure Finds (nfa : Nfa) (seeds known : List StateSet) : Prop where
  /-- The seeds come first, as they are, each at its first place. -/
  seeds_first : seeds.eraseDups <+: known
  nodup : known.Nodup
  /-- Besides the seeds themselves there is what can be reached from them by reading. -/
  mem_iff : forall state, state ∈ known ↔ state ∈ seeds ∨
    exists seed word, seed ∈ seeds ∧ word ≠ [] ∧ nfa.InAlphabet word ∧
      nfa.advanceWord seed word = state

theorem finds_explore (nfa : Nfa) (seeds : List StateSet) :
    Finds nfa seeds (nfa.explore seeds).known := by
  refine ⟨seeds_prefix_known nfa seeds, nodup_known nfa seeds, fun state => ?_⟩
  rw [mem_known_iff]
  constructor
  · rintro ⟨seed, word, isSeed, inside, reached⟩
    cases word with
    | nil =>
      cases reached
      exact Or.inl isSeed
    | cons character rest =>
      exact Or.inr ⟨seed, character :: rest, isSeed, List.cons_ne_nil _ _, inside, reached⟩
  · rintro (isSeed | ⟨seed, word, isSeed, _, inside, reached⟩)
    · exact ⟨state, [], isSeed, inAlphabet_nil nfa, rfl⟩
    · exact ⟨seed, word, isSeed, inside, reached⟩

/-! ## The states of the deterministic automaton -/

theorem mem_discovered_iff {state : StateSet} :
    state ∈ nfa.discovered ↔ exists word, nfa.InAlphabet word ∧ nfa.statesAfter word = state := by
  unfold discovered
  rw [mem_known_iff]
  constructor
  · rintro ⟨seed, word, isSeed, inside, reached⟩
    rw [List.mem_singleton.mp isSeed, advanceWord_closure] at reached
    exact ⟨word, inside, reached⟩
  · rintro ⟨word, inside, reached⟩
    refine ⟨_, word, List.mem_cons_self, inside, ?_⟩
    rw [advanceWord_closure]
    exact reached

/-- Discovered sets are sets of states of the nondeterministic automaton. -/
theorem subset_states_of_mem_discovered {state : StateSet}
    (isDiscovered : state ∈ nfa.discovered) : state ⊆ nfa.states := by
  rcases mem_discovered_iff.mp isDiscovered with ⟨word, _, rfl⟩
  exact closure_readWord_subset_states (initial_subset_states nfa) word

/-- The accepting sets, too, are listed once each. -/
theorem accepting_toDfa_eq_filter (nfa : Nfa) :
    nfa.toDfa.accepting = nfa.discovered.filter nfa.isAccepting :=
  eraseDups_of_nodup ((nodup_known nfa _).filter _)

/-- The accepting sets are listed in the order in which they were found. -/
theorem accepting_toDfa (nfa : Nfa) : nfa.toDfa.accepting =
    nfa.discovered.filter fun state => state.intersects nfa.accepting := by
  rw [accepting_toDfa_eq_filter]
  apply List.filter_congr
  intro state isDiscovered
  rw [isAccepting, closure_of_mem_discovered state isDiscovered]

/-- From any seeds an exploration finds what can be reached from them.  The states of the
deterministic automaton are therefore the sets in which a run of the nondeterministic one
can be.  They are closed under free moves, and those with an accepting state accept. -/
theorem exploration_finds_reachable (nfa : Nfa) :
    (forall seeds : List StateSet, Finds nfa seeds (nfa.explore seeds).known) ∧
    (forall state, state ∈ nfa.toDfa.states ↔ state ∈ nfa.discovered) ∧
    (forall state, state ∈ nfa.discovered ↔
      exists word, nfa.InAlphabet word ∧ nfa.statesAfter word = state) ∧
    (forall state, state ∈ nfa.discovered -> nfa.closure state = state) ∧
    nfa.toDfa.accepting =
      nfa.discovered.filter fun state => state.intersects nfa.accepting :=
  ⟨finds_explore nfa, fun _ => mem_states_toDfa, fun _ => mem_discovered_iff,
    closure_of_mem_discovered, accepting_toDfa nfa⟩

/-- Seeds may be listed repeatedly and need not be closed.  State 1 alone stays a set of its
own, although its closure is found besides it. -/
theorem exploration_finds_reachable_freeCycle :
    SortedSet.ofList [0, 1] ∈ freeCycle.discovered ∧
      freeCycle.closure (SortedSet.ofList [0, 1]) = SortedSet.ofList [0, 1] ∧
      Finds freeCycle [SortedSet.ofList [1], SortedSet.ofList [2], SortedSet.ofList [1]]
        [SortedSet.ofList [1], SortedSet.ofList [2], ∅, SortedSet.ofList [0, 1]] := by
  have isDiscovered : SortedSet.ofList [0, 1] ∈ freeCycle.discovered := by decide +kernel
  have known : (freeCycle.explore [SortedSet.ofList [1], SortedSet.ofList [2],
      SortedSet.ofList [1]]).known =
        [SortedSet.ofList [1], SortedSet.ofList [2], ∅, SortedSet.ofList [0, 1]] := by
    decide +kernel
  have found := exploration_finds_reachable freeCycle
  refine ⟨isDiscovered, found.2.2.2.1 _ isDiscovered, ?_⟩
  rw [← known]
  exact found.1 _

end Nfa
end FiniteAutomata
