import FiniteAutomata.Pattern.Basic

namespace FiniteAutomata

/-!
# Literals and canonical patterns

Four characters have a meaning of their own in the written form of a pattern. A
pattern can hold them as literals, but its written form is then read differently.
Among the patterns without such literals, the canonical ones are those that
reading can produce from their written form.
-/

namespace Pattern

/-- Whether a character has a meaning of its own in the written form. -/
def isReserved (character : Char) : Bool :=
  character == '(' || character == ')' || character == '|' || character == '*'

theorem eq_of_isReserved {character : Char} (reserved : isReserved character = true) :
    character = '(' ∨ character = ')' ∨ character = '|' ∨ character = '*' := by
  simpa [isReserved, or_assoc] using reserved

theorem ne_of_isReserved {character other : Char} (isLiteral : isReserved character = false)
    (reserved : isReserved other = true) : character ≠ other := by
  intro same
  rw [same, reserved] at isLiteral
  cases isLiteral

/-- The literals of a pattern from left to right, with repetitions. -/
def literals : Pattern -> List Char
  | empty => []
  | literal character => [character]
  | concat first second => first.literals ++ second.literals
  | choice first second => first.literals ++ second.literals
  | star inner => inner.literals

/-- No literal has a meaning of its own in the written form. -/
def Plain (pattern : Pattern) : Prop :=
  forall character, character ∈ pattern.literals -> isReserved character = false

instance (pattern : Pattern) : Decidable pattern.Plain :=
  List.decidableBAll (fun character => isReserved character = false) pattern.literals

/-- Whether the pattern is a sequence of two parts. -/
def isConcat : Pattern -> Bool
  | concat _ _ => true
  | _ => false

/-- Whether the pattern is a choice between two parts. -/
def isChoice : Pattern -> Bool
  | choice _ _ => true
  | _ => false

/-- Nothing in the pattern is lost when it is written: sequences and choices are
nested to the left, and no part of a sequence is the empty pattern. -/
def isCanonical : Pattern -> Bool
  | empty => true
  | literal _ => true
  | concat first second =>
    first != empty && second != empty && !second.isConcat &&
      first.isCanonical && second.isCanonical
  | choice first second =>
    !second.isChoice && first.isCanonical && second.isCanonical
  | star inner => inner.isCanonical

end Pattern

end FiniteAutomata
