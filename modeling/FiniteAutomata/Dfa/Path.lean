import FiniteAutomata.Dfa.Table
import FiniteAutomata.Word

namespace FiniteAutomata

universe u

/-!
# Paths through the table of a deterministic automaton

A path is a chain of rules, and the characters of the rules spell a word.
-/

namespace Table

/-- `Path table source word target` says that rules lead from `source` to `target`
and read exactly `word` on the way. -/
inductive Path {State : Type u} (table : Table State) : State -> Word -> State -> Prop where
  | stay (state : State) : Path table state [] state
  | read {source middle target : State} {character : Char} {word : Word} :
      ⟨source, character, middle⟩ ∈ table.rules -> Path table middle word target ->
        Path table source (character :: word) target

/-- Paths can be joined, and then read one word after the other. -/
theorem Path.append {State : Type u} {table : Table State} {source middle target : State}
    {left right : Word} (first : Path table source left middle)
    (second : Path table middle right target) :
    Path table source (left ++ right) target := by
  induction first with
  | stay state => exact second
  | read rule _ inductionHypothesis => exact Path.read rule (inductionHypothesis second)

end Table

end FiniteAutomata
