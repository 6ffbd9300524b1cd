import FiniteAutomata.StateSet

namespace FiniteAutomata

universe u v

/-!
# Transitions between states

A transition leads from one state to another on a symbol. In a nondeterministic
automaton the symbol may be free, which means that nothing is read; in a
deterministic automaton it is always a character.
-/

/-- What a transition of a nondeterministic automaton reads. -/
inductive Symbol where
  /-- Nothing: the transition may be taken at any time. -/
  | free
  /-- Exactly this character. -/
  | char (character : Char)
  deriving DecidableEq, Repr, Inhabited

namespace Symbol

def isFree : Symbol -> Bool
  | free => true
  | char _ => false

def char? : Symbol -> Option Char
  | free => none
  | char character => some character

/-- A character is written as itself and the free symbol as an epsilon. -/
def text : Symbol -> String
  | free => "ε"
  | char character => String.singleton character

instance : ToString Symbol := ⟨text⟩

/-- The free symbol comes first, then the characters by code point. -/
instance : Ord Symbol where
  compare
    | free, free => .eq
    | free, char _ => .lt
    | char _, free => .gt
    | char first, char second => compare first second

end Symbol

/-- A move from `source` to `target` that reads `symbol`. -/
structure Transition (State : Type u) (Label : Type v) where
  source : State
  symbol : Label
  target : State
  deriving DecidableEq, Repr, Inhabited

namespace Transition

variable {State : Type u} {Label : Type v}

/-- Whether the transition can be taken in `state` when reading `symbol`. -/
def appliesTo [DecidableEq State] [DecidableEq Label] (transition : Transition State Label)
    (state : State) (symbol : Label) : Bool :=
  decide (transition.source = state) && decide (transition.symbol = symbol)

@[simp]
theorem appliesTo_eq_true [DecidableEq State] [DecidableEq Label]
    {transition : Transition State Label} {state : State} {symbol : Label} :
    transition.appliesTo state symbol = true ↔
      transition.source = state ∧ transition.symbol = symbol := by
  simp [appliesTo]

/-- The source, an arrow that carries the symbol, and the target. -/
def text [ToString State] [ToString Label] (transition : Transition State Label) : String :=
  toString transition.source ++ " --" ++ toString transition.symbol ++ "--> " ++
    toString transition.target

instance [ToString State] [ToString Label] : ToString (Transition State Label) := ⟨text⟩

def free (source target : State) : Transition State Symbol :=
  ⟨source, Symbol.free, target⟩

def reading (source : State) (character : Char) (target : State) : Transition State Symbol :=
  ⟨source, Symbol.char character, target⟩

end Transition

end FiniteAutomata
