import FiniteAutomata.Dfa.Basic
import FiniteAutomata.Nfa.Basic

namespace FiniteAutomata

universe u v

/-!
# Calling states by other names

The numbers of its states, the order of its moves and their repetitions are accidents of
how a nondeterministic automaton was written down.  Two automata are the same graph if
one is the other with its states renumbered, whatever the order in which the moves are
listed.
-/

/-- The transition between the renamed states. -/
def Transition.mapStates {State : Type u} {Label : Type v} (rename : State -> State)
    (transition : Transition State Label) : Transition State Label :=
  ⟨rename transition.source, transition.symbol, rename transition.target⟩

/-- The deterministic automaton in which every state has been renamed.  Everything that is
listed keeps its place. -/
def Dfa.mapStates {State : Type u} (rename : State -> State) (dfa : Dfa State) : Dfa State where
  start := rename dfa.start
  accepting := dfa.accepting.map rename
  table := ⟨dfa.table.rules.map (Transition.mapStates rename)⟩

/-- `Renumbers rename nfa renumbered` says that `renumbered` is the graph of `nfa` with
every state called by another number, and different states by different ones. -/
structure Nfa.Renumbers (rename : StateId -> StateId) (nfa renumbered : Nfa) : Prop where
  injective : forall first second, first ∈ nfa.states -> second ∈ nfa.states ->
    rename first = rename second -> first = second
  start_eq : renumbered.start = rename nfa.start
  accepting_eq : renumbered.accepting = nfa.accepting.image rename
  /-- The moves are the same as a set: their order and their number may differ. -/
  mem_moves : forall move, move ∈ renumbered.moves ↔
    exists original, original ∈ nfa.moves ∧ original.mapStates rename = move

end FiniteAutomata
