import FiniteAutomata.Pattern.Literals
import FiniteAutomata.Proofs.Pattern.Language

namespace FiniteAutomata
namespace Pattern

/-!
# The pattern that its written form stands for

The written form of a pattern does not show how its sequences and choices are
nested, nor where an empty part stands in a sequence.  What it does show are the
items of a sequence and the branches of a choice, and they determine the normal
form: both are nested to the left again, and the empty items are gone.  A pattern
and its normal form match the same words.
-/

mutual

/-- What the pattern adds to a sequence in which it stands. -/
def items : Pattern -> List Pattern
  | empty => []
  | literal character => [literal character]
  | concat first second => first.items ++ second.items
  | choice first second => [alternatives (first.branches ++ second.branches)]
  | star inner => [star (alternatives inner.branches)]

/-- What the pattern adds to a choice in which it stands. -/
def branches : Pattern -> List Pattern
  | empty => [empty]
  | literal character => [literal character]
  | concat first second => [sequence (first.items ++ second.items)]
  | choice first second => first.branches ++ second.branches
  | star inner => [star (alternatives inner.branches)]

end

/-- The pattern as it is read from its written form. -/
def normalForm (pattern : Pattern) : Pattern := alternatives pattern.branches

theorem items_choice (first second : Pattern) :
    (choice first second).items = [(choice first second).normalForm] :=
  rfl

theorem items_star (inner : Pattern) : (star inner).items = [star inner.normalForm] := rfl

theorem branches_star (inner : Pattern) : (star inner).branches = [star inner.normalForm] := rfl

theorem branches_of_not_choice {pattern : Pattern} (notChoice : pattern.isChoice = false) :
    pattern.branches = [sequence pattern.items] := by
  cases pattern with
  | choice first second => cases notChoice
  | empty | literal character | concat first second | star inner => rfl

theorem branches_ne_nil (pattern : Pattern) : pattern.branches ≠ [] := by
  induction pattern with
  | choice first second firstHypothesis _ =>
    intro nothing
    exact firstHypothesis (List.append_eq_nil_iff.mp nothing).1
  | empty | literal character | concat first second | star inner => exact List.cons_ne_nil _ _

/-! ## Equivalence -/

/-- The items in a row and the choice between the branches match what the pattern
matches. -/
theorem language_items_and_branches (pattern : Pattern) :
    (pattern.items.map language).prod = pattern.language ∧
      (pattern.branches.map language).sum = pattern.language := by
  induction pattern with
  | empty => exact ⟨language_empty.symm, add_zero _⟩
  | literal character => exact ⟨mul_one _, add_zero _⟩
  | concat first second firstHypothesis secondHypothesis =>
    have product : ((first.items ++ second.items).map language).prod =
        (concat first second).language := by
      rw [List.map_append, List.prod_append, firstHypothesis.1, secondHypothesis.1,
        language_concat]
    refine ⟨product, ?_⟩
    rw [branches, List.map_singleton, List.sum_singleton, language_sequence]
    exact product
  | choice first second firstHypothesis secondHypothesis =>
    have sum : ((first.branches ++ second.branches).map language).sum =
        (choice first second).language := by
      rw [List.map_append, List.sum_append, firstHypothesis.2, secondHypothesis.2,
        language_choice]
    refine ⟨?_, sum⟩
    rw [items_choice, List.map_singleton, List.prod_singleton, normalForm,
      language_alternatives (branches_ne_nil (choice first second))]
    exact sum
  | star inner inductionHypothesis =>
    have body : (star inner.normalForm).language = (star inner).language := by
      rw [language_star, normalForm, language_alternatives (branches_ne_nil inner),
        inductionHypothesis.2, language_star]
    constructor
    · rw [items_star, List.map_singleton, List.prod_singleton, body]
    · rw [branches_star, List.map_singleton, List.sum_singleton, body]

theorem normalForm_equivalent (pattern : Pattern) :
    pattern.normalForm.Equivalent pattern := by
  apply equivalent_iff_language_eq.mpr
  rw [normalForm, language_alternatives (branches_ne_nil pattern)]
  exact (language_items_and_branches pattern).2

end Pattern
end FiniteAutomata
