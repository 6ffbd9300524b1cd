import FiniteAutomata.Nfa.Closure

namespace FiniteAutomata

/-!
# Running a nondeterministic automaton

A run is in a set of states at once. Reading a character first closes the set
under free moves and then makes every possible move on the character; the result
is closed when it is looked at or when the next character is read. From the
empty set no word is accepted.
-/

namespace Nfa

/-- The states after one more character. -/
def read (nfa : Nfa) (states : StateSet) (character : Char) : StateSet :=
  nfa.step (nfa.closure states) (Symbol.char character)

/-- The states after all characters of a word, from left to right. -/
def readWord (nfa : Nfa) (states : StateSet) (word : Word) : StateSet :=
  word.foldl nfa.read states

/-- Whether an accepting state is reached from `states` without reading anything
more. -/
def isAccepting (nfa : Nfa) (states : StateSet) : Bool :=
  (nfa.closure states).intersects nfa.accepting

/-- The set in which every run begins. -/
def initial (nfa : Nfa) : StateSet := SortedSet.singleton nfa.start

/-- The states, closed under free moves, in which a run is after a word. -/
def statesAfter (nfa : Nfa) (word : Word) : StateSet :=
  nfa.closure (nfa.readWord nfa.initial word)

/-- Whether a run over the whole word ends in an accepting state. -/
def accepts (nfa : Nfa) (word : Word) : Bool :=
  nfa.isAccepting (nfa.readWord nfa.initial word)

end Nfa

end FiniteAutomata
