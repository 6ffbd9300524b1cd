import FiniteAutomata.Pattern.Faults
import FiniteAutomata.Pattern.Grammar

namespace FiniteAutomata
namespace Pattern

/-!
# Balanced brackets

A word is balanced if every bracket in it has its partner in it.  Whether a bracket has a
partner does not change when balanced words are put around or behind it, which is why
brackets can be looked at without regard to anything else in the text.  Every phrase of
the grammar is balanced.
-/

/-- Every opening bracket of the word has its closing one, and the other way round. -/
structure Balanced (word : Word) : Prop where
  neverClosed : NeverClosed word
  equal : word.count ')' = word.count '('

/-! ## Words in a row -/

theorem prefix_append_cases {part left right : Word} (isPrefix : part <+: left ++ right) :
    part <+: left ∨ exists rest, part = left ++ rest ∧ rest <+: right := by
  rcases isPrefix with ⟨later, split⟩
  rcases List.append_eq_append_iff.mp split with ⟨rest, within, _⟩ | ⟨rest, beyond, remains⟩
  · exact Or.inl ⟨rest, within.symm⟩
  · exact Or.inr ⟨rest, beyond, later, remains.symm⟩

theorem neverClosed_nil : NeverClosed [] := by
  intro part isPrefix
  rw [List.prefix_nil.mp isPrefix]
  exact Nat.le_refl _

theorem NeverClosed.append {left right : Word} (first : NeverClosed left)
    (second : NeverClosed right) : NeverClosed (left ++ right) := by
  intro part isPrefix
  rcases prefix_append_cases isPrefix with within | ⟨rest, split, within⟩
  · exact first part within
  · have leftCount := first left List.prefix_rfl
    have restCount := second rest within
    rw [split, List.count_append, List.count_append]
    omega

theorem balanced_nil : Balanced [] := ⟨neverClosed_nil, rfl⟩

theorem Balanced.append {left right : Word} (first : Balanced left) (second : Balanced right) :
    Balanced (left ++ right) := by
  refine ⟨first.neverClosed.append second.neverClosed, ?_⟩
  rw [List.count_append, List.count_append, first.equal, second.equal]

theorem balanced_singleton {character : Char} (notOpening : character ≠ '(')
    (notClosing : character ≠ ')') : Balanced [character] := by
  have none : forall part, part <+: [character] -> part.count ')' = 0 ∧ part.count '(' = 0 := by
    intro part isPrefix
    constructor
    · exact List.count_eq_zero.mpr fun member =>
        notClosing (List.mem_singleton.mp (isPrefix.subset member)).symm
    · exact List.count_eq_zero.mpr fun member =>
        notOpening (List.mem_singleton.mp (isPrefix.subset member)).symm
  refine ⟨fun part isPrefix => ?_, ?_⟩
  · rw [(none part isPrefix).1]
    exact Nat.zero_le _
  · rw [(none _ List.prefix_rfl).1, (none _ List.prefix_rfl).2]

theorem count_opening_cons (word : Word) :
    ('(' :: word).count ')' = word.count ')' ∧ ('(' :: word).count '(' = word.count '(' + 1 :=
  ⟨List.count_cons_of_ne (by decide), List.count_cons_self⟩

theorem count_append_closing (word : Word) :
    (word ++ [')']).count ')' = word.count ')' + 1 ∧
      (word ++ [')']).count '(' = word.count '(' := by
  rw [List.count_append, List.count_append]
  exact ⟨rfl, rfl⟩

theorem Balanced.brackets {word : Word} (balanced : Balanced word) :
    Balanced ('(' :: (word ++ [')'])) := by
  have equal := balanced.equal
  have whole := count_opening_cons (word ++ [')'])
  rw [(count_append_closing word).1, (count_append_closing word).2] at whole
  constructor
  · intro part isPrefix
    rcases List.prefix_cons_iff.mp isPrefix with nothing | ⟨rest, split, within⟩
    · rw [nothing]
      exact Nat.le_refl _
    · rcases List.prefix_concat_iff.mp within with isWhole | inside
      · rw [split, isWhole, whole.1, whole.2]
        omega
      · have counts := balanced.neverClosed rest inside
        rw [split, (count_opening_cons rest).1, (count_opening_cons rest).2]
        omega
  · rw [whole.1, whole.2, equal]

/-- What follows a balanced beginning of a balanced word is balanced. -/
theorem Balanced.of_append {left right : Word} (first : Balanced left)
    (whole : Balanced (left ++ right)) : Balanced right := by
  have leftEqual := first.equal
  constructor
  · intro part isPrefix
    have counts := whole.neverClosed (left ++ part)
      ((List.prefix_append_right_inj left).mpr isPrefix)
    rw [List.count_append, List.count_append] at counts
    omega
  · have counts := whole.equal
    rw [List.count_append, List.count_append] at counts
    omega

/-! ## Brackets without a partner -/

theorem Balanced.not_hasUnclosed {word : Word} (balanced : Balanced word) :
    ¬ HasUnclosed word := by
  rintro ⟨before, after, split, neverClosed⟩
  have total := balanced.equal
  have beforeCount := balanced.neverClosed before ⟨_, split.symm⟩
  have afterCount := neverClosed after List.prefix_rfl
  rw [split, List.count_append, List.count_append, (count_opening_cons after).1,
    (count_opening_cons after).2] at total
  omega

/-! ## Phrases -/

theorem Derives.balanced {phrase : Phrase} {word : Word} {pattern : Pattern}
    (derives : Derives phrase word pattern) : Balanced word := by
  induction derives with
  | branch _ inductionHypothesis | row _ inductionHypothesis | item _ inductionHypothesis
  | once _ inductionHypothesis => exact inductionHypothesis
  | bar _ _ earlierHypothesis latestHypothesis =>
    have bar : Balanced ['|'] := balanced_singleton (by decide) (by decide)
    exact earlierHypothesis.append (bar.append latestHypothesis)
  | nothing => exact balanced_nil
  | next _ _ earlierHypothesis latestHypothesis => exact earlierHypothesis.append latestHypothesis
  | star _ inductionHypothesis =>
    exact inductionHypothesis.append (balanced_singleton (by decide) (by decide))
  | brackets _ inductionHypothesis => exact inductionHypothesis.brackets
  | literal isLiteral =>
    exact balanced_singleton (ne_of_isReserved isLiteral rfl) (ne_of_isReserved isLiteral rfl)

end Pattern
end FiniteAutomata
