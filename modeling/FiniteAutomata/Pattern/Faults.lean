import FiniteAutomata.Pattern.Basic

namespace FiniteAutomata

/-!
# What can be wrong with a text

There are two reasons for which a text is not the written form of a pattern, and both
can be seen without reading it as one. A character can be misplaced, which depends only
on the characters before it. And an opening bracket can lack its closing one, which
depends only on the characters after it.
-/

namespace Pattern

/-- A bracket that is opened directly before the word is not closed in it: no part of the
word from its beginning holds more closing than opening brackets. -/
def NeverClosed (word : Word) : Prop :=
  forall part, part <+: word -> part.count ')' ≤ part.count '('

/-- Some opening bracket of the word has no matching closing one. -/
def HasUnclosed (word : Word) : Prop :=
  exists before after, word = before ++ '(' :: after ∧ NeverClosed after

/-- The word ends where a branch begins, so there is nothing that a star could repeat. -/
def AtBranchStart (word : Word) : Prop :=
  word = [] ∨ exists earlier, word = earlier ++ ['('] ∨ word = earlier ++ ['|']

/-- The character cannot stand directly after the word `before`. -/
inductive Misplaced (before : Word) : Char -> Prop where
  /-- There is no open bracket to be closed. -/
  | close : ¬ HasUnclosed before -> Misplaced before ')'
  | star : AtBranchStart before -> Misplaced before '*'

/-- No character of the word is misplaced. -/
def WellPlaced (word : Word) : Prop :=
  forall before character after,
    word = before ++ character :: after -> ¬ Misplaced before character

/-- The position of what follows the word `before`, which is the length of its UTF-8
encoding. -/
def offset (before : Word) : Nat := (String.ofList before).utf8ByteSize

theorem offset_append_singleton (before : Word) (character : Char) :
    offset (before ++ [character]) = offset before + character.utf8Size := by
  unfold offset
  rw [String.ofList_append, String.utf8ByteSize_append]
  congr 1
  exact String.utf8ByteSize_singleton

end Pattern

end FiniteAutomata
