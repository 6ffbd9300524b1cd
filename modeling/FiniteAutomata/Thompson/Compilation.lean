import FiniteAutomata.Log.Event
import FiniteAutomata.Nfa.Run
import FiniteAutomata.Thompson.Assembly

namespace FiniteAutomata

/-!
# From a pattern to a nondeterministic automaton

The automaton of a pattern accepts exactly the words that the pattern matches.
Its states remember which part of the pattern they were made for.
-/

/-- A nondeterministic automaton whose states may have labels. -/
structure LabelledNfa where
  nfa : Nfa
  /-- What states were made for. A state without an entry has no label. -/
  origins : List (StateId × Thompson.Origin) := []
  deriving DecidableEq, Inhabited

/-- The label of a state, if it has one. -/
def LabelledNfa.label? (labelled : LabelledNfa) (state : StateId) : Option String :=
  (labelled.origins.lookup state).map Thompson.Origin.label

namespace Pattern

/-- Makes the automaton of a pattern, beginning with state `0`. -/
def compile (pattern : Pattern) : Logged Event LabelledNfa := do
  let (fragment, assembly) := Thompson.assemble pattern {}
  Logged.emit (.compiled pattern assembly.supply.allocated assembly.moves.length)
  return ⟨⟨fragment.start, SortedSet.ofList fragment.accepting, assembly.moves⟩,
    assembly.origins⟩

/-- The automaton of a pattern with the labels of its states. -/
def toLabelledNfa (pattern : Pattern) : LabelledNfa := pattern.compile.value

def toNfa (pattern : Pattern) : Nfa := pattern.toLabelledNfa.nfa

/-- Whether the whole text matches, decided by the nondeterministic automaton. -/
def matchesByNfa (pattern : Pattern) (text : String) : Bool :=
  pattern.toNfa.accepts text.toList

end Pattern

end FiniteAutomata
