import FiniteAutomata.Determinization.Exploration
import FiniteAutomata.Log.Logged
import FiniteAutomata.Matcher.Engine
import FiniteAutomata.Pattern.Rendering

namespace FiniteAutomata

/-!
# What is recorded while automata are built

Each stage of the construction leaves an event that says what was made and how
large it is. Only building leaves events, matching does not.
-/

/-- How much detail an event belongs to. -/
inductive Level where
  | trace
  | debug
  deriving DecidableEq, Repr, Inhabited

def Level.text : Level -> String
  | trace => "TRACE"
  | debug => "DEBUG"

/-- Something that happened while an automaton was built. -/
inductive Event where
  /-- A pattern was made into a nondeterministic automaton with so many states and
  transitions. -/
  | compiled (pattern : Pattern) (states : StateId) (transitions : Nat)
  /-- A set of states became known as a state of the deterministic automaton. -/
  | discovered (discovery : Discovery)
  /-- A nondeterministic automaton with so many states was made deterministic; the
  other numbers are the sizes of the result. -/
  | determinized (nfaStates dfaStates accepting rules : Nat)
  /-- A matcher for a pattern is ready for use. -/
  | built (pattern : Pattern) (engine : Engine)
  deriving DecidableEq, Inhabited

namespace Event

def level : Event -> Level
  | compiled _ _ _ => Level.trace
  | discovered _ => Level.trace
  | determinized _ _ _ _ => Level.debug
  | built _ _ => Level.debug

def message : Event -> String
  | compiled pattern states transitions =>
    "Compiled /" ++ pattern.render ++ "/: " ++ toString states ++ " states, " ++
      toString transitions ++ " rules"
  | discovered discovery =>
    "Add state: " ++ discovery.state.text ++ " (from " ++ discovery.source.text ++ " on " ++
      Text.quotedChar discovery.symbol ++ ")"
  | determinized nfaStates dfaStates accepting rules =>
    "Subset construction: " ++ toString nfaStates ++ " NFA states -> " ++
      toString dfaStates ++ " DFA states (" ++ toString accepting ++ " accepting), " ++
      toString rules ++ " rules"
  | built pattern engine =>
    "Compiled /" ++ pattern.render ++ "/ for the " ++ engine.text ++ " engine"

/-- What is written to the log. -/
def line (event : Event) : Level × String := (event.level, event.message)

end Event

end FiniteAutomata
