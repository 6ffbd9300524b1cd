import FiniteAutomata.Determinization.Basic
import FiniteAutomata.Pattern.Parser

namespace FiniteAutomata

/-!
# Matchers

A matcher is a pattern that has been made into an automaton once, so that many
texts can be matched against it. Building it leaves events, using it does not.
-/

/-- An automaton of either kind. -/
inductive Automaton where
  | nfa (automaton : Nfa)
  /-- A deterministic automaton whose states are sets of states. -/
  | dfa (automaton : Dfa StateSet)
  deriving DecidableEq

def Automaton.accepts : Automaton -> Word -> Bool
  | nfa automaton, word => automaton.accepts word
  | dfa automaton, word => automaton.accepts word

/-- A pattern that is ready for matching. -/
structure Matcher where
  pattern : Pattern
  config : Config
  automaton : Automaton
  deriving DecidableEq

namespace Matcher

/-- The automaton that the given engine runs. -/
def automatonFor (engine : Engine) (nfa : Nfa) : Logged Event Automaton :=
  match engine with
  | .nfa => pure (.nfa nfa)
  | .dfa => do return .dfa (<- nfa.determinize)

/-- Builds the matcher of a pattern. -/
def build (config : Config) (pattern : Pattern) : Logged Event Matcher := do
  let compiled <- pattern.compile
  let automaton <- automatonFor config.engine compiled.nfa
  Logged.emit (.built pattern config.engine)
  return ⟨pattern, config, automaton⟩

/-- Builds the matcher of a pattern in the usual way. -/
def ofPattern (pattern : Pattern) : Logged Event Matcher := build {} pattern

/-- Reads a pattern and builds its matcher in the usual way. -/
def parse (text : String) : Except Pattern.SyntaxError (Logged Event Matcher) := do
  return ofPattern (<- Pattern.parse text)

def isMatch (matcher : Matcher) (text : String) : Bool :=
  matcher.automaton.accepts text.toList

/-- Builds a matcher and asks it about each text in turn. -/
def session (config : Config) (pattern : Pattern) (texts : List String) :
    Logged Event (List Bool) := do
  let matcher <- build config pattern
  return texts.map matcher.isMatch

end Matcher

end FiniteAutomata
