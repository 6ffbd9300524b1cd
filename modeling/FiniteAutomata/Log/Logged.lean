namespace FiniteAutomata

universe u v

/-!
# Values that come with a record of events

A logged computation yields a value together with the events that happened on the
way, in the order in which they happened.
-/

/-- A value and the events that its computation caused. -/
structure Logged (Event : Type u) (α : Type v) where
  value : α
  /-- The events, in the order in which they happened. -/
  events : List Event
  deriving DecidableEq, Repr

namespace Logged

variable {Event : Type u}

def emit (event : Event) : Logged Event Unit := ⟨(), [event]⟩

/-- A value without events; of two computations one after the other, the events
of the first come first. -/
instance : Monad (Logged Event) where
  pure value := ⟨value, []⟩
  bind first next :=
    let second := next first.value
    ⟨second.value, first.events ++ second.events⟩

end Logged

end FiniteAutomata
