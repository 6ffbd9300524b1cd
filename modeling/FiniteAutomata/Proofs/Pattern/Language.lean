import FiniteAutomata.Pattern.Language
import Mathlib.Computability.Language

namespace FiniteAutomata
namespace Pattern

/-!
# The algebra of matching

The words of a pattern form a language in the usual sense: the empty pattern is
the unit, a sequence the product, a choice the sum and a repetition the star.
Regrouping the parts of a sequence or choice, or leaving empty parts out, is then
a matter of the laws of a semiring.
-/

open Computability

/-- The words that match a pattern, as a language. -/
def language (pattern : Pattern) : Language Char := {word | pattern.Matches word}

theorem mem_language {pattern : Pattern} {word : Word} :
    word ∈ pattern.language ↔ pattern.Matches word :=
  Iff.rfl

theorem equivalent_iff_language_eq {first second : Pattern} :
    first.Equivalent second ↔ first.language = second.language := by
  constructor
  · intro equivalent
    exact Language.ext equivalent
  · intro same word
    rw [← mem_language, same]
    exact Iff.rfl

/-! ## One equation for each kind of pattern -/

theorem language_empty : (empty : Pattern).language = 1 := by
  apply Language.ext
  intro word
  rw [Language.mem_one, mem_language]
  constructor
  · intro accepted
    cases accepted
    rfl
  · intro nothing
    rw [nothing]
    exact Matches.empty

theorem language_literal (character : Char) :
    (literal character).language = {[character]} := by
  apply Language.ext
  intro word
  rw [mem_language]
  constructor
  · intro accepted
    cases accepted
    rfl
  · intro single
    rw [Set.mem_singleton_iff.mp single]
    exact Matches.literal character

theorem language_concat (first second : Pattern) :
    (concat first second).language = first.language * second.language := by
  apply Language.ext
  intro word
  rw [Language.mem_mul, mem_language]
  constructor
  · intro accepted
    cases accepted with
    | concat left right => exact ⟨_, left, _, right, rfl⟩
  · intro inProduct
    rcases inProduct with ⟨left, leftMatches, right, rightMatches, joined⟩
    rw [← joined]
    exact Matches.concat leftMatches rightMatches

theorem language_choice (first second : Pattern) :
    (choice first second).language = first.language + second.language := by
  apply Language.ext
  intro word
  rw [Language.mem_add, mem_language]
  constructor
  · intro accepted
    cases accepted with
    | first accepted => exact Or.inl accepted
    | second accepted => exact Or.inr accepted
  · intro inSum
    rcases inSum with accepted | accepted
    · exact Matches.first accepted
    · exact Matches.second accepted

/-- A repetition matches any number of words of its body in a row. -/
theorem matches_star_iff {inner : Pattern} {word : Word} :
    (star inner).Matches word ↔
      exists parts : List Word, word = parts.flatten ∧
        forall part, part ∈ parts -> inner.Matches part := by
  constructor
  · intro accepted
    -- The pattern is an index of the relation, so its shape is carried along.
    generalize whole : star inner = pattern at accepted
    induction accepted with
    | stop => exact ⟨[], rfl, fun part member => absurd member List.not_mem_nil⟩
    | again accepted _ _ inductionHypothesis =>
      cases whole
      rcases inductionHypothesis rfl with ⟨parts, split, each⟩
      exact ⟨_ :: parts, congrArg (List.append _) split,
        List.forall_mem_cons.mpr ⟨accepted, each⟩⟩
    | empty | literal | concat | first | second => cases whole
  · intro inRow
    rcases inRow with ⟨parts, split, each⟩
    rw [split]
    clear split
    induction parts with
    | nil => exact Matches.stop
    | cons part later inductionHypothesis =>
      rcases List.forall_mem_cons.mp each with ⟨accepted, others⟩
      exact Matches.again accepted (inductionHypothesis others)

theorem language_star (inner : Pattern) : (star inner).language = inner.language∗ := by
  apply Language.ext
  intro word
  rw [Language.mem_kstar, mem_language]
  exact matches_star_iff

/-! ## Parts in a row and branches of a choice -/

theorem language_foldl_concat (first : Pattern) (rest : List Pattern) :
    (rest.foldl concat first).language =
      first.language * (rest.map language).prod := by
  induction rest generalizing first with
  | nil => exact (mul_one first.language).symm
  | cons second later inductionHypothesis =>
    rw [List.foldl_cons, inductionHypothesis, language_concat, List.map_cons, List.prod_cons,
      mul_assoc]

theorem language_sequence (parts : List Pattern) :
    (sequence parts).language = (parts.map language).prod := by
  cases parts with
  | nil => exact language_empty
  | cons first rest => exact language_foldl_concat first rest

theorem language_foldl_choice (first : Pattern) (rest : List Pattern) :
    (rest.foldl choice first).language = first.language + (rest.map language).sum := by
  induction rest generalizing first with
  | nil => exact (add_zero first.language).symm
  | cons second later inductionHypothesis =>
    rw [List.foldl_cons, inductionHypothesis, language_choice, List.map_cons, List.sum_cons,
      add_assoc]

/-- No branches at all make the empty pattern, so there must be one. -/
theorem language_alternatives {branches : List Pattern} (nonempty : branches ≠ []) :
    (alternatives branches).language = (branches.map language).sum := by
  cases branches with
  | nil => exact absurd rfl nonempty
  | cons first rest => exact language_foldl_choice first rest

end Pattern
end FiniteAutomata
