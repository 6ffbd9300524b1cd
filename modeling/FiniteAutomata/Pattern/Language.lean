import FiniteAutomata.Pattern.Basic

namespace FiniteAutomata

/-!
# The words of a pattern

`Pattern.Matches pattern word` says what it means for a word to match, without
reference to any automaton.
-/

namespace Pattern

/-- The words that match a pattern. -/
inductive Matches : Pattern -> Word -> Prop where
  | empty : Matches .empty []
  | literal (character : Char) : Matches (.literal character) [character]
  | concat {first second : Pattern} {left right : Word} :
      Matches first left -> Matches second right ->
        Matches (.concat first second) (left ++ right)
  | first {first second : Pattern} {word : Word} :
      Matches first word -> Matches (.choice first second) word
  | second {first second : Pattern} {word : Word} :
      Matches second word -> Matches (.choice first second) word
  | stop {inner : Pattern} : Matches (.star inner) []
  | again {inner : Pattern} {left right : Word} :
      Matches inner left -> Matches (.star inner) right ->
        Matches (.star inner) (left ++ right)

/-- Two patterns are equivalent if the same words match them. -/
def Equivalent (first second : Pattern) : Prop :=
  forall word, first.Matches word ↔ second.Matches word

end Pattern

end FiniteAutomata
