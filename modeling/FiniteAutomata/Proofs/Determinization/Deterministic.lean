import FiniteAutomata.Proofs.Determinization.Discovery
import FiniteAutomata.Proofs.Dfa.Run
import FiniteAutomata.Proofs.Nfa.Trim
import Mathlib.Data.List.Perm.Subperm

namespace FiniteAutomata

/-!
# Deterministic rules in both kinds of automata

The same rules can be given to a deterministic automaton and to a nondeterministic one,
which has no free moves then.  One run is in at most one state and the other in a set of
them, but both are where a path for the word leads.  So the set has the one state as its
only member, or none if the run is dead, and making the nondeterministic automaton
deterministic again adds at most the dead state.
-/

/-- The move of a nondeterministic automaton that a rule allows. -/
def Transition.asMove (rule : Rule StateId) : Move :=
  Transition.reading rule.source rule.symbol rule.target

namespace Nfa

/-- The nondeterministic automaton over the rules of a deterministic one. -/
def ofRules (start : StateId) (accepting : List StateId) (rules : List (Rule StateId)) : Nfa where
  start
  accepting := SortedSet.ofList accepting
  moves := rules.map Transition.asMove

/-- The set of the states in which a deterministic run can be said to be. -/
def ofCurrent (current : Option StateId) : StateSet := current.elim ∅ SortedSet.singleton

theorem mem_ofCurrent {current : Option StateId} {state : StateId} :
    state ∈ ofCurrent current ↔ current = some state := by
  cases current with
  | none => simp [ofCurrent]
  | some other => simp [ofCurrent, eq_comm]

theorem size_ofCurrent_le (current : Option StateId) : (ofCurrent current).size ≤ 1 := by
  cases current with
  | none => exact Nat.zero_le 1
  | some state => exact Nat.le_refl 1

section Rules

variable {start : StateId} {accepting : List StateId} {rules : List (Rule StateId)}
  {table : Table StateId} {source target : StateId} {character : Char} {word : Word}

theorem reading_mem_moves_ofRules :
    Transition.reading source character target ∈ (ofRules start accepting rules).moves ↔
      ⟨source, character, target⟩ ∈ rules := by
  constructor
  · intro listed
    rcases List.mem_map.mp listed with ⟨⟨_, _, _⟩, isRule, same⟩
    cases same
    exact isRule
  · intro isRule
    exact List.mem_map.mpr ⟨_, isRule, rfl⟩

theorem free_not_mem_moves_ofRules :
    ¬ Transition.free source target ∈ (ofRules start accepting rules).moves := by
  intro listed
  rcases List.mem_map.mp listed with ⟨rule, _, same⟩
  cases same

/-- The two automata have the same paths. -/
theorem path_ofRules_iff (sameRules : forall rule, rule ∈ table.rules ↔ rule ∈ rules) :
    (ofRules start accepting rules).Path source word target ↔
      table.Path source word target := by
  constructor
  · intro path
    induction path with
    | stay state => exact Table.Path.stay state
    | free listed _ _ => exact absurd listed free_not_mem_moves_ofRules
    | read listed _ inductionHypothesis =>
      have isRule := (sameRules _).mpr (reading_mem_moves_ofRules.mp listed)
      exact Table.Path.read isRule inductionHypothesis
  · intro path
    induction path with
    | stay state => exact Path.stay state
    | read listed _ inductionHypothesis =>
      refine Path.read (reading_mem_moves_ofRules.mpr ?_) inductionHypothesis
      exact (sameRules _).mp listed

end Rules

/-! ## The two runs -/

/-- What the two automata have in common. -/
structure RunAlike (nfa : Nfa) (dfa : Dfa StateId) : Prop where
  /-- After every word the one state, if there is one, is all that the set holds. -/
  statesAfter_eq : forall word,
    nfa.statesAfter word = ofCurrent (dfa.readWord (some dfa.start) word)
  accepts_eq : forall word, nfa.accepts word = dfa.accepts word
  /-- Sets of several states are never met. -/
  size_le_one : forall state, state ∈ nfa.toDfa.states -> state.size ≤ 1
  length_states_le : nfa.toDfa.states.length ≤ nfa.stateCount + 1

/-- If every set that a run can be in holds at most one state, then there are hardly more
such sets than states. -/
theorem length_states_toDfa_le_succ {nfa : Nfa}
    (single : forall word, exists current, nfa.statesAfter word = ofCurrent current) :
    nfa.toDfa.states.length ≤ nfa.stateCount + 1 := by
  have covered : nfa.discovered ⊆ ∅ :: nfa.states.toList.map SortedSet.singleton := by
    intro state isDiscovered
    rcases mem_discovered_iff.mp isDiscovered with ⟨word, _, rfl⟩
    rcases single word with ⟨current, reached⟩
    rw [reached] at isDiscovered ⊢
    cases current with
    | none => exact List.mem_cons_self
    | some state =>
      have isState : state ∈ nfa.states :=
        subset_states_of_mem_discovered isDiscovered state (mem_ofCurrent.mpr rfl)
      exact List.mem_cons_of_mem _ (List.mem_map.mpr ⟨state, isState, rfl⟩)
  have bounded := (nodup_known nfa _).length_le_of_subset covered
  rw [List.length_cons, List.length_map] at bounded
  rw [states_toDfa]
  exact bounded

section Accepted

variable {rules : List (Rule StateId)} {book : Rulebook StateId} {start : StateId}
  {accepting : List StateId}

/-- The set holds exactly the state of the deterministic run. -/
theorem statesAfter_ofRules (represents : Rulebook.Represents rules book) (word : Word) :
    (ofRules start accepting rules).statesAfter word =
      ofCurrent ((Dfa.ofTable start accepting book.table).readWord (some start) word) := by
  ext state
  rw [mem_statesAfter_iff, mem_ofCurrent,
    Dfa.readWord_eq_some_iff_path represents.deterministic_table]
  exact path_ofRules_iff fun _ => represents.mem_rules

theorem accepts_ofRules (represents : Rulebook.Represents rules book) (word : Word) :
    (ofRules start accepting rules).accepts word =
      (Dfa.ofTable start accepting book.table).accepts word := by
  apply Bool.eq_iff_iff.mpr
  rw [accepts_iff_exists_path, Dfa.accepts, Dfa.isAccepting_ofTable_iff]
  simp only [← mem_statesAfter_iff, statesAfter_ofRules represents, mem_ofCurrent]
  simp [ofRules, Dfa.ofTable]

end Accepted

/-- Rules that are accepted as deterministic make two automata that run alike, and the
nondeterministic one is made deterministic without meeting sets of several states. -/
theorem deterministic_rules_run_alike {rules : List (Rule StateId)} {book : Rulebook StateId}
    (accepted : Rulebook.ofRules rules = .ok book) (start : StateId)
    (accepting : List StateId) :
    RunAlike (ofRules start accepting rules) (Dfa.ofTable start accepting book.table) := by
  have represents := Rulebook.represents_of_ofRules accepted
  refine ⟨statesAfter_ofRules represents, accepts_ofRules represents, ?_, ?_⟩
  · intro state isState
    rcases mem_discovered_iff.mp (mem_states_toDfa.mp isState) with ⟨word, _, rfl⟩
    rw [statesAfter_ofRules represents]
    exact size_ofCurrent_le _
  · apply length_states_toDfa_le_succ
    intro word
    exact ⟨_, statesAfter_ofRules represents word⟩

theorem deterministic_rules_run_alike_backAndForth :
    Rulebook.ofRules Dfa.backAndForth = .ok Dfa.backAndForthBook ∧
      RunAlike (ofRules 0 [1] Dfa.backAndForth)
        (Dfa.ofTable 0 [1] Dfa.backAndForthBook.table) :=
  ⟨Dfa.ofRules_backAndForth, deterministic_rules_run_alike Dfa.ofRules_backAndForth 0 [1]⟩

/-- The bound is reached: both states and the dead one are found. -/
example : (ofRules 0 [1] Dfa.backAndForth).toDfa.states.length = 3 ∧
    (ofRules 0 [1] Dfa.backAndForth).stateCount = 2 := by
  decide +kernel

end Nfa
end FiniteAutomata
