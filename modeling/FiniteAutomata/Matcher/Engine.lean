namespace FiniteAutomata

/-!
# The choice of an automaton for matching
-/

/-- The kind of automaton that decides whether a word matches. -/
inductive Engine where
  /-- The nondeterministic automaton itself. It is quickly built, but every
  character moves a whole set of states. -/
  | nfa
  /-- The deterministic automaton made from it. Every character is a single look
  into a table, but the table can be exponentially large. -/
  | dfa
  deriving DecidableEq, Repr, Inhabited

def Engine.text : Engine -> String
  | nfa => "Nfa"
  | dfa => "Dfa"

/-- How a matcher is to be built. Unless stated otherwise, words are matched by a
deterministic automaton. -/
structure Config where
  engine : Engine := Engine.dfa
  deriving DecidableEq, Repr, Inhabited

end FiniteAutomata
