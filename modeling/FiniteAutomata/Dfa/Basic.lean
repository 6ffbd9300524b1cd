import FiniteAutomata.Dfa.Table
import FiniteAutomata.Word

namespace FiniteAutomata

universe u

/-!
# Deterministic automata

A run of a deterministic automaton is in a single state, or in none: where the
table has no rule for the character that is read, the run is dead and remains so.
A dead run accepts nothing.
-/

structure Dfa (State : Type u) where
  start : State
  /-- The states in which a word may end to be accepted, each listed once. -/
  accepting : List State
  table : Table State
  deriving DecidableEq, Repr, Inhabited

namespace Dfa

variable {State : Type u} [DecidableEq State]

/-- The automaton over a table. Accepting states that are given repeatedly count
once, at their first place. -/
def ofTable (start : State) (accepting : List State) (table : Table State) : Dfa State :=
  ⟨start, accepting.eraseDups, table⟩

/-- All states that are the start or appear in a rule, each at its first place. -/
def states (dfa : Dfa State) : List State :=
  (dfa.start :: dfa.table.rules.flatMap fun rule => [rule.source, rule.target]).eraseDups

/-- Where a run is after one more character. -/
def read (dfa : Dfa State) (current : Option State) (character : Char) : Option State :=
  current.bind fun state => dfa.table.next? state character

/-- Where a run is after all characters of a word, from left to right. Once the
run is dead, the rest of the word is not looked at. -/
def readWord (dfa : Dfa State) : Option State -> Word -> Option State
  | none, _ => none
  | some state, [] => some state
  | some state, character :: rest => dfa.readWord (dfa.table.next? state character) rest

/-- Whether a run that is here accepts. -/
def isAccepting (dfa : Dfa State) (current : Option State) : Bool :=
  current.any fun state => decide (state ∈ dfa.accepting)

def accepts (dfa : Dfa State) (word : Word) : Bool :=
  dfa.isAccepting (dfa.readWord (some dfa.start) word)

end Dfa

end FiniteAutomata
