import FiniteAutomata.Transition
import FiniteAutomata.Text.Quoted

namespace FiniteAutomata

universe u

/-!
# Tables of deterministic automata

A table lists rules, each of which leads from a state to another on a character.
A table that is put together rule by rule never holds two rules for the same
state and character: a rule that repeats an earlier one is dropped, and a rule
that contradicts an earlier one is refused.
-/

/-- A transition of a deterministic automaton, which always reads a character. -/
abbrev Rule (State : Type u) := Transition State Char

/-- Two rules that lead from the same state to different ones on the same
character. -/
structure Conflict (State : Type u) where
  state : State
  symbol : Char
  deriving DecidableEq, Repr

def Conflict.message {State : Type u} [Quoted State] (conflict : Conflict State) : String :=
  "conflicting rules for state " ++ Quoted.quoted conflict.state ++ " on " ++
    Text.quotedChar conflict.symbol

/-- The rules of a deterministic automaton. -/
structure Table (State : Type u) where
  rules : List (Rule State) := []
  deriving DecidableEq, Repr, Inhabited

namespace Table

variable {State : Type u}

def alphabet (table : Table State) : Alphabet :=
  SortedSet.ofList (table.rules.map Transition.symbol)

variable [DecidableEq State]

/-- The rule for `state` and `character`, if there is one. -/
def ruleFor? (table : Table State) (state : State) (character : Char) :
    Option (Rule State) :=
  table.rules.find? fun rule => rule.appliesTo state character

/-- The state that is reached from `state` on `character`, if there is a rule. -/
def next? (table : Table State) (state : State) (character : Char) : Option State :=
  (table.ruleFor? state character).map Transition.target

/-- The table with one more rule, unless there is a rule for the same state and
character already. That rule must then have the same target. -/
def add (table : Table State) (rule : Rule State) : Except (Conflict State) (Table State) :=
  match table.next? rule.source rule.symbol with
  | none => .ok ⟨table.rules ++ [rule]⟩
  | some target =>
    if target = rule.target then .ok table else .error ⟨rule.source, rule.symbol⟩

/-- The table of a list of rules. The first rule that contradicts an earlier one
is reported. -/
def ofRules (rules : List (Rule State)) : Except (Conflict State) (Table State) :=
  rules.foldlM add {}

/-- The table with one more rule, which must be the first one for its state and
character. -/
def addNew? (table : Table State) (rule : Rule State) : Option (Table State) :=
  match table.ruleFor? rule.source rule.symbol with
  | none => some ⟨table.rules ++ [rule]⟩
  | some _ => none

/-- The table of rules that are promised to be for different states and characters.
There is none if the promise is broken. -/
def ofDistinct? (rules : List (Rule State)) : Option (Table State) :=
  rules.foldlM addNew? {}

end Table

/-- Rules that agree on the target whenever they leave the same state on the same
character. -/
def Deterministic {State : Type u} (rules : List (Rule State)) : Prop :=
  forall first second, first ∈ rules -> second ∈ rules ->
    first.source = second.source -> first.symbol = second.symbol ->
      first.target = second.target

end FiniteAutomata
