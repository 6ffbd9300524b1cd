import FiniteAutomata.Dictionary
import FiniteAutomata.Nfa.Basic

namespace FiniteAutomata

/-!
# Moves with an index

A movebook keeps an index beside its moves, so that the moves that can be made in a state on a
symbol are found without a search: for every pair of a state and a symbol the index holds the
places of these moves in the list.  The places are noted one after the other, and a move may
occur in several of them; so the moves are found in their order and as often as they are
listed.
-/

/-- The places of moves in a list, by the state that a move leaves and the symbol that it
reads. -/
abbrev MoveIndex (count : Nat) := Dictionary (StateId × Symbol) (List (Fin count))

namespace MoveIndex

variable {count : Nat}

/-- The places that are noted for a state and a symbol, in the order in which they were
noted. -/
def places (index : MoveIndex count) (state : StateId) (symbol : Symbol) : List (Fin count) :=
  (index.get? (state, symbol)).getD []

/-- The index in which one more place is noted. -/
def note (index : MoveIndex count) (move : Move) (place : Fin count) : MoveIndex count :=
  index.insert (move.source, move.symbol) (index.places move.source move.symbol ++ [place])

theorem places_note (index : MoveIndex count) (move : Move) (place : Fin count)
    (state : StateId) (symbol : Symbol) :
    (index.note move place).places state symbol =
      index.places state symbol ++ if move.appliesTo state symbol then [place] else [] := by
  by_cases applies : move.appliesTo state symbol = true
  · rcases Transition.appliesTo_eq_true.mp applies with ⟨rfl, rfl⟩
    simp [places, note, applies]
  · have differs : (state, symbol) ≠ (move.source, move.symbol) := by
      intro same
      cases same
      exact applies (Transition.appliesTo_eq_true.mpr ⟨rfl, rfl⟩)
    simp [places, note, applies, differs]

end MoveIndex

/-- The moves of a nondeterministic automaton, with an index of their places. -/
structure Movebook where
  /-- The moves, in the order in which they were given. -/
  moves : List Move
  index : MoveIndex moves.length

namespace Movebook

/-- Notes the place of every move. -/
def ofMoves (moves : List Move) : Movebook where
  moves := moves
  index := (List.finRange moves.length).foldl
    (fun index place => index.note (moves.get place) place) Dictionary.empty

/-- The moves at the places that are noted for a state and a symbol. -/
def movesFrom (book : Movebook) (state : StateId) (symbol : Symbol) : List Move :=
  (book.index.places state symbol).map book.moves.get

end Movebook

end FiniteAutomata
