import FiniteAutomata.SortedSet.Lemmas

namespace FiniteAutomata

universe u

/-!
# States, sets of states and alphabets

States are numbered by 32-bit words. A set of states is itself used as a state
when an automaton is made deterministic; the empty set is then the state from
which nothing can be accepted any more.
-/

/-- The number of a state. -/
abbrev StateId := UInt32

/-- A set of states, listed in ascending order. -/
abbrev StateSet := SortedSet StateId

/-- The characters an automaton can read, in ascending order of code points. -/
abbrev Alphabet := SortedSet Char

/-- The members between braces, in ascending order, separated by commas. -/
def SortedSet.text {α : Type u} [LT α] [ToString α] (set : SortedSet α) : String :=
  "\x7b" ++ ", ".intercalate (set.toList.map toString) ++ "\x7d"

instance {α : Type u} [LT α] [ToString α] : ToString (SortedSet α) := ⟨SortedSet.text⟩

end FiniteAutomata
