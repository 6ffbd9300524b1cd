import FiniteAutomata.Nfa.Movebook
import Mathlib.Data.List.FinRange

namespace FiniteAutomata
namespace Movebook

/-!
# The index finds every move

While the places of the moves are noted one after the other, those that are noted for a state
and a symbol are always the places, among those that have been gone through, of the moves that
can be made there.  When all have been gone through, the moves at these places are the moves
that a search finds, in the same order and with the same repetitions.
-/

/-- What is noted for a state and a symbol grows by the places of the moves that can be made
there. -/
theorem places_foldl_note {count : Nat} (move : Fin count -> Move) (places : List (Fin count))
    (index : MoveIndex count) (state : StateId) (symbol : Symbol) :
    (places.foldl (fun index place => index.note (move place) place) index).places state symbol =
      index.places state symbol ++
        places.filter fun place => (move place).appliesTo state symbol := by
  induction places generalizing index with
  | nil => exact (List.append_nil _).symm
  | cons place later inductionHypothesis =>
    rw [List.foldl_cons, inductionHypothesis, MoveIndex.places_note, List.append_assoc,
      List.filter_cons]
    split <;> rfl

/-- The moves to which the index leads are those that a search through the list finds. -/
theorem movesFrom_ofMoves (nfa : Nfa) (state : StateId) (symbol : Symbol) :
    (ofMoves nfa.moves).movesFrom state symbol = nfa.movesFrom state symbol := by
  let applies : Move -> Bool := fun move => move.appliesTo state symbol
  have noted : (ofMoves nfa.moves).index.places state symbol =
      (List.finRange nfa.moves.length).filter (applies ∘ nfa.moves.get) :=
    places_foldl_note nfa.moves.get _ Dictionary.empty state symbol
  calc (ofMoves nfa.moves).movesFrom state symbol
      = ((List.finRange nfa.moves.length).filter (applies ∘ nfa.moves.get)).map nfa.moves.get :=
        congrArg (List.map nfa.moves.get) noted
    _ = ((List.finRange nfa.moves.length).map nfa.moves.get).filter applies :=
        List.filter_map.symm
    _ = nfa.moves.filter applies := by rw [List.map_get_finRange]

end Movebook
end FiniteAutomata
