import FiniteAutomata.StateSet

namespace FiniteAutomata

/-!
# A supply of fresh states

States are handed out in counting order, so one supply never hands out the same
state twice before all 2 ^ 32 of them have been used.
-/

/-- Hands out the states `0`, `1`, `2`, … in this order. -/
structure StateSupply where
  next : StateId := 0
  deriving DecidableEq, Repr, Inhabited

namespace StateSupply

/-- The next state, and the supply that remains. -/
def fresh (supply : StateSupply) : StateId × StateSupply :=
  (supply.next, ⟨supply.next + 1⟩)

/-- How many states have been handed out so far. -/
def allocated (supply : StateSupply) : StateId := supply.next

end StateSupply

end FiniteAutomata
