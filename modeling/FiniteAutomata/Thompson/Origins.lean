import FiniteAutomata.Thompson.Assembly

namespace FiniteAutomata

/-!
# The states that a pattern needs

Every part of a pattern needs states of its own, and the parts come before the
whole. A sequence needs no states besides those of its parts.
-/

/-- What the states of the automaton of a pattern are made for, in the order in
which they are made. -/
def Pattern.origins : Pattern -> List Thompson.Origin
  | .empty => [⟨.empty, .start⟩]
  | .literal character => [⟨.literal character, .start⟩, ⟨.literal character, .accept⟩]
  | .concat first second => first.origins ++ second.origins
  | .choice first second =>
    first.origins ++ second.origins ++ [⟨.choice first second, .start⟩]
  | .star inner => inner.origins ++ [⟨.star inner, .start⟩]

end FiniteAutomata
