import FiniteAutomata.Nfa.Basic

namespace FiniteAutomata

/-!
# Paths through a nondeterministic automaton

A path is a chain of moves; the characters that its moves read spell a word, and
free moves may stand anywhere. Paths say what an automaton does without saying
how a run keeps track of it.
-/

namespace Nfa

/-- `Path nfa source word target` says that moves lead from `source` to `target`
and read exactly `word` on the way. -/
inductive Path (nfa : Nfa) : StateId -> Word -> StateId -> Prop where
  | stay (state : StateId) : Path nfa state [] state
  | free {source middle target : StateId} {word : Word} :
      Transition.free source middle ∈ nfa.moves -> Path nfa middle word target ->
        Path nfa source word target
  | read {source middle target : StateId} {character : Char} {word : Word} :
      Transition.reading source character middle ∈ nfa.moves ->
        Path nfa middle word target -> Path nfa source (character :: word) target

/-- Paths can be joined, and then read one word after the other. -/
theorem Path.append {nfa : Nfa} {source middle target : StateId} {left right : Word}
    (first : Path nfa source left middle) (second : Path nfa middle right target) :
    Path nfa source (left ++ right) target := by
  induction first with
  | stay state => exact second
  | free move _ inductionHypothesis => exact Path.free move (inductionHypothesis second)
  | read move _ inductionHypothesis => exact Path.read move (inductionHypothesis second)

/-- The word that is read by making moves one after the other. Free moves add
nothing to it. -/
def spelled (moves : List Move) : Word :=
  moves.filterMap fun move => move.symbol.char?

/-- `IsRoute nfa source moves target` says that the moves belong to the automaton
and that each leaves the state to which the one before it led. The first leaves
`source`, and the last leads to `target`. -/
def IsRoute (nfa : Nfa) : StateId -> List Move -> StateId -> Prop
  | source, [], target => source = target
  | source, move :: later, target =>
    move ∈ nfa.moves ∧ move.source = source ∧ nfa.IsRoute move.target later target

end Nfa

end FiniteAutomata
