import FiniteAutomata.Transition
import FiniteAutomata.Word

namespace FiniteAutomata

/-!
# Nondeterministic automata with free moves

The transitions are listed in a fixed order and may repeat. What the automaton
accepts does not depend on the order, but everything that lists transitions or
their targets follows it.
-/

abbrev Move := Transition StateId Symbol

/-- A nondeterministic automaton with free moves. -/
structure Nfa where
  /-- The state in which every run begins. -/
  start : StateId
  /-- The states in which a word may end to be accepted. -/
  accepting : StateSet
  /-- The transitions, in the order in which they were given. -/
  moves : List Move
  deriving DecidableEq, Inhabited

namespace Nfa

/-- The moves that can be made in `state` when reading `symbol`. -/
def movesFrom (nfa : Nfa) (state : StateId) (symbol : Symbol) : List Move :=
  nfa.moves.filter fun move => move.appliesTo state symbol

/-- The targets of the moves that can be made in `state` when reading `symbol`; a
state is listed once for every move that leads to it. -/
def targets (nfa : Nfa) (state : StateId) (symbol : Symbol) : List StateId :=
  (nfa.movesFrom state symbol).map Transition.target

/-- The states reached from any of `states` by a single move on `symbol`. -/
def step (nfa : Nfa) (states : StateSet) (symbol : Symbol) : StateSet :=
  SortedSet.ofList (states.toList.flatMap fun state => nfa.targets state symbol)

def alphabet (nfa : Nfa) : Alphabet :=
  SortedSet.ofList (nfa.moves.filterMap fun move => move.symbol.char?)

def targetStates (nfa : Nfa) : StateSet :=
  SortedSet.ofList (nfa.moves.map Transition.target)

def states (nfa : Nfa) : StateSet :=
  (SortedSet.singleton nfa.start ∪ nfa.accepting).insertMany
    (nfa.moves.flatMap fun move => [move.source, move.target])

def stateCount (nfa : Nfa) : Nat := nfa.states.size

theorem mem_movesFrom {nfa : Nfa} {state : StateId} {symbol : Symbol} {move : Move} :
    move ∈ nfa.movesFrom state symbol ↔
      move ∈ nfa.moves ∧ move.source = state ∧ move.symbol = symbol := by
  rw [movesFrom, List.mem_filter, Transition.appliesTo_eq_true]

theorem mem_targets {nfa : Nfa} {state target : StateId} {symbol : Symbol} :
    target ∈ nfa.targets state symbol ↔ ⟨state, symbol, target⟩ ∈ nfa.moves := by
  rw [targets, List.mem_map]
  constructor
  · rintro ⟨move, member, rfl⟩
    obtain ⟨listed, rfl, rfl⟩ := mem_movesFrom.mp member
    exact listed
  · intro listed
    exact ⟨_, mem_movesFrom.mpr ⟨listed, rfl, rfl⟩, rfl⟩

theorem mem_step {nfa : Nfa} {states : StateSet} {symbol : Symbol} {target : StateId} :
    target ∈ nfa.step states symbol ↔
      exists state, state ∈ states ∧ ⟨state, symbol, target⟩ ∈ nfa.moves := by
  rw [step, SortedSet.mem_ofList, List.mem_flatMap]
  simp only [SortedSet.mem_toList, mem_targets]

theorem mem_states {nfa : Nfa} {state : StateId} :
    state ∈ nfa.states ↔ state = nfa.start ∨ state ∈ nfa.accepting ∨
      exists move, move ∈ nfa.moves ∧ (state = move.source ∨ state = move.target) := by
  rw [states, SortedSet.mem_insertMany, SortedSet.mem_union, SortedSet.mem_singleton,
    List.mem_flatMap, or_assoc]
  simp

theorem start_mem_states (nfa : Nfa) : nfa.start ∈ nfa.states :=
  mem_states.mpr (Or.inl rfl)

theorem mem_states_of_mem_accepting {nfa : Nfa} {state : StateId}
    (accepted : state ∈ nfa.accepting) : state ∈ nfa.states :=
  mem_states.mpr (Or.inr (Or.inl accepted))

theorem source_mem_states {nfa : Nfa} {move : Move} (listed : move ∈ nfa.moves) :
    move.source ∈ nfa.states :=
  mem_states.mpr (Or.inr (Or.inr ⟨move, listed, Or.inl rfl⟩))

theorem target_mem_states {nfa : Nfa} {move : Move} (listed : move ∈ nfa.moves) :
    move.target ∈ nfa.states :=
  mem_states.mpr (Or.inr (Or.inr ⟨move, listed, Or.inr rfl⟩))

theorem target_mem_targetStates {nfa : Nfa} {source target : StateId} {symbol : Symbol}
    (listed : ⟨source, symbol, target⟩ ∈ nfa.moves) : target ∈ nfa.targetStates :=
  SortedSet.mem_ofList.mpr (List.mem_map.mpr ⟨_, listed, rfl⟩)

end Nfa

end FiniteAutomata
