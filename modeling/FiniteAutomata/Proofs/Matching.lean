import FiniteAutomata.Matcher.Basic
import FiniteAutomata.Proofs.Determinization.Simulation
import FiniteAutomata.Proofs.Thompson.Recognition

namespace FiniteAutomata

/-!
# Matching decides the language of a pattern

The automaton of a pattern is the fragment that is assembled from nothing.  It
recognizes the pattern as long as no state is handed out twice, that is as long as
the supply of states lasts.  Making it deterministic changes nothing about the
words that it accepts, and a matcher only keeps one of the two automata.
-/

open Thompson (assemble Recognizes built_assemble_nothing origins_assemble)

namespace Pattern

/-- A state is recorded for each of the origins of a pattern. -/
theorem origins_toLabelledNfa (pattern : Pattern) :
    pattern.toLabelledNfa.origins.map Prod.snd = pattern.origins :=
  origins_assemble pattern {}

theorem length_origins_toLabelledNfa (pattern : Pattern) :
    pattern.toLabelledNfa.origins.length = pattern.origins.length := by
  rw [← origins_toLabelledNfa, List.length_map]

/-- The fragment that is assembled from nothing recognizes the pattern. -/
theorem recognizes_assemble {pattern : Pattern}
    (fits : pattern.origins.length < UInt32.size) :
    Recognizes (assemble pattern {}).1 (assemble pattern {}).2.moves pattern :=
  (built_assemble_nothing fits).2.recognizes

theorem accepts_toNfa {pattern : Pattern} (fits : pattern.origins.length < UInt32.size)
    (word : Word) : pattern.toNfa.accepts word = true ↔ pattern.Matches word := by
  rw [Nfa.accepts_iff_exists_path, recognizes_assemble fits word]
  constructor
  · intro reached
    rcases reached with ⟨target, accepts, path⟩
    exact ⟨target, SortedSet.mem_ofList.mp accepts, path⟩
  · intro reached
    rcases reached with ⟨target, accepts, path⟩
    exact ⟨target, SortedSet.mem_ofList.mpr accepts, path⟩

theorem accepts_toDfa {pattern : Pattern} (fits : pattern.origins.length < UInt32.size)
    (word : Word) : pattern.toDfa.accepts word = true ↔ pattern.Matches word := by
  rw [toDfa, Nfa.accepts_toDfa]
  exact accepts_toNfa fits word

end Pattern

namespace Matcher

/-- A matcher asks the automaton that its engine names. -/
theorem isMatch_build (config : Config) (pattern : Pattern) (text : String) :
    (build config pattern).value.isMatch text =
      match config.engine with
      | .nfa => pattern.matchesByNfa text
      | .dfa => pattern.matchesByDfa text := by
  rcases config with ⟨engine⟩
  cases engine with
  | nfa => rfl
  | dfa => rfl

/-- Every way of matching decides whether the text matches, provided that no state of
the automaton had to be handed out twice. -/
theorem matching_decides_language (pattern : Pattern)
    (fits : pattern.toLabelledNfa.origins.length < UInt32.size) (text : String) :
    (pattern.matchesByNfa text = true ↔ pattern.Matches text.toList) ∧
      (pattern.matchesByDfa text = true ↔ pattern.Matches text.toList) ∧
      forall config : Config,
        ((build config pattern).value.isMatch text = true ↔ pattern.Matches text.toList) := by
  have fitsOrigins : pattern.origins.length < UInt32.size := by
    rw [← Pattern.length_origins_toLabelledNfa]
    exact fits
  have byNfa : pattern.matchesByNfa text = true ↔ pattern.Matches text.toList :=
    Pattern.accepts_toNfa fitsOrigins text.toList
  have byDfa : pattern.matchesByDfa text = true ↔ pattern.Matches text.toList :=
    Pattern.accepts_toDfa fitsOrigins text.toList
  refine ⟨byNfa, byDfa, ?_⟩
  intro config
  rw [isMatch_build]
  cases config.engine with
  | nfa => exact byNfa
  | dfa => exact byDfa

/-- A repetition of repetitions, one of them of nothing, and a bracket as a literal. -/
def nestedStars : Pattern :=
  .star (.concat (.star (.choice (.literal '(') (.star .empty))) (.literal '*'))

theorem matching_decides_nestedStars :
    nestedStars.toLabelledNfa.origins.length < UInt32.size ∧
      (nestedStars.matchesByNfa "((*" = true ↔ nestedStars.Matches "((*".toList) ∧
      nestedStars.matchesByNfa "((*" = true := by
  have fits : nestedStars.toLabelledNfa.origins.length < UInt32.size := by decide
  have decides := matching_decides_language nestedStars fits "((*"
  exact ⟨fits, decides.1, by decide +kernel⟩

end Matcher
end FiniteAutomata
