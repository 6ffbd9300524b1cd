import FiniteAutomata.Dfa.Basic
import FiniteAutomata.Log.Event
import FiniteAutomata.Thompson.Compilation

namespace FiniteAutomata

/-!
# From nondeterministic to deterministic automata

The states of the deterministic automaton are the closed sets of states in which
a run of the nondeterministic one can be. They are found by exploration, so their
number can be exponential but only sets that occur are listed. The table has one
rule for every state and character of the alphabet; on any other character the
run dies.
-/

namespace Nfa

/-- Makes an automaton deterministic and records how its states were found. -/
def determinize (nfa : Nfa) : Logged Event (Dfa StateSet) :=
  let start := nfa.closure nfa.initial
  let exploration := nfa.explore [start]
  let accepting := exploration.known.filter nfa.isAccepting
  { value := Dfa.ofTable start accepting ⟨exploration.rules⟩
    events := exploration.discoveries.map Event.discovered ++
      [.determinized nfa.stateCount exploration.known.length accepting.length
        exploration.rules.length] }

/-- The deterministic automaton that accepts the same words. -/
def toDfa (nfa : Nfa) : Dfa StateSet := nfa.determinize.value

end Nfa

namespace Pattern

/-- The deterministic automaton of a pattern. -/
def toDfa (pattern : Pattern) : Dfa StateSet := pattern.toNfa.toDfa

/-- Whether the whole text matches, decided by the deterministic automaton. -/
def matchesByDfa (pattern : Pattern) (text : String) : Bool :=
  pattern.toDfa.accepts text.toList

end Pattern

end FiniteAutomata
